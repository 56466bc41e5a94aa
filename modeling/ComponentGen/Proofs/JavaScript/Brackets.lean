import ComponentGen.JavaScript.Expr
import ComponentGen.Proofs.Induction
import ComponentGen.Proofs.JavaScript.Identifiers
import ComponentGen.Proofs.Jsx.Grammar
import ComponentGen.Proofs.Text.Reading
/-!
# Brackets of expressions

Whatever an expression is made of, the brackets of its text nest properly. Strings and the keys that
are no identifiers stand in quotes, where every quote and backslash of theirs is escaped; the rest of
the text is made of identifiers, numbers and the brackets of arrays, objects and member reads.
-/

namespace ComponentGen.JavaScript

open Jsx (IsGroup IsStringBody Nested isPlain)

/-! ## Strings -/

theorem isStringBody_of_plain {cs : List Char} (plain : ∀ c ∈ cs, c ≠ '"' ∧ c ≠ '\\') :
    IsStringBody cs := by
  induction cs with
  | nil => exact .nil
  | cons c rest ih =>
      obtain ⟨notQuote, notBackslash⟩ := plain c List.mem_cons_self
      exact .plain notQuote notBackslash
        (ih fun later member => plain later (List.mem_cons_of_mem c member))

theorem hexDigit_ne {n : Nat} (small : n < 16) : hexDigit n ≠ '"' ∧ hexDigit n ≠ '\\' := by
  have all : ∀ n < 16, hexDigit n ≠ '"' ∧ hexDigit n ≠ '\\' := by decide
  exact all n small

/-- A character that is not written as itself is written as an escape. -/
theorem isStringBody_escapeChar (c : Char) : IsStringBody (escapeChar c) := by
  have pair (e : Char) : IsStringBody ['\\', e] := .escape e .nil
  unfold escapeChar
  split
  · exact pair '"'
  next notQuote =>
  split
  · exact pair '\\'
  next notBackslash =>
  split
  · exact pair 'b'
  split
  · exact pair 'f'
  split
  · exact pair 'n'
  split
  · exact pair 'r'
  split
  · exact pair 't'
  split
  · next control =>
      refine .escape 'u' (isStringBody_of_plain ?_)
      rw [List.forall_mem_cons, List.forall_mem_cons, List.forall_mem_cons, List.forall_mem_singleton]
      exact ⟨by decide, by decide, hexDigit_ne (by omega), hexDigit_ne (Nat.mod_lt _ (by decide))⟩
  · exact .plain notQuote notBackslash .nil

theorem nested_quote (s : String) : Nested (quote s).toList := by
  rw [quote, String.toList_ofList]
  exact .string (IsStringBody.flatMap fun c _ => isStringBody_escapeChar c) .nil

/-! ## Identifiers and numbers -/

/-- The characters that are not plain are of some other kind, so the characters of a kind that has
none of them are plain. -/
theorem isPlain_of_kind (isKind : Char → Bool)
    (special : ['(', ')', '[', ']', '{', '}', '"'].all (!isKind ·) = true) {c : Char}
    (kind : isKind c = true) : isPlain c = true := by
  have different {d : Char} (member : d ∈ ['(', ')', '[', ']', '{', '}', '"']) : (c == d) = false := by
    have notKind : isKind d = false := by simpa using List.all_eq_true.1 special d member
    exact beq_false_of_ne (Text.ne_of_kind kind notKind)
  simp only [isPlain, Jsx.brackets, List.any_cons, List.any_nil, bne, different, List.mem_cons,
    true_or, or_true, Bool.or_self, Bool.not_false, Bool.and_self]

theorem nested_identifier {name : String} (bare : isIdentifier name = true) : Nested name.toList :=
  Nested.of_plain (List.all_eq_true.2 fun _ member =>
    isPlain_of_kind isIdentifierPart (by decide) (isIdentifierPart_of_mem bare member))

/-- The characters of numbers. -/
def isNumberChar (c : Char) : Bool :=
  c.isDigit || c == '-' || c == '.'

theorem isNumberChar_of_mem_toString {n : Nat} {c : Char} (member : c ∈ (toString n).toList) :
    isNumberChar c = true := by
  rw [Text.toList_toString] at member
  rw [isNumberChar, Text.isDigit_of_mem_toDigits member]
  rfl

theorem isNumberChar_of_mem_positional {digits : Nat} {exponent : Int} {c : Char}
    (member : c ∈ (positional digits exponent).toList) : isNumberChar c = true := by
  have significant {d : Char} (inDigits : d ∈ (significantDigits digits exponent).1) :
      isNumberChar d = true := by
    rw [significantDigits] at inDigits
    have inWritten := (List.dropWhile_sublist _).subset (List.mem_reverse.1 inDigits)
    exact isNumberChar_of_mem_toString (List.mem_reverse.1 inWritten)
  have zero {count : Nat} {d : Char} (inZeros : d ∈ List.replicate count '0') :
      isNumberChar d = true := by
    rw [List.eq_of_mem_replicate inZeros]
    rfl
  rw [positional] at member
  split at member
  next digitList shift split =>
  rw [split] at significant
  split at member
  · rw [String.toList_ofList, List.mem_append] at member
    exact member.elim significant zero
  · simp only at member
    split at member
    · rw [String.toList_ofList, List.mem_append, List.mem_cons] at member
      rcases member with whole | rfl | fraction
      · exact significant (List.mem_of_mem_take whole)
      · rfl
      · exact significant (List.mem_of_mem_drop fraction)
    · rw [String.toList_ofList, List.mem_append, List.mem_cons, List.mem_cons] at member
      rcases member with (rfl | rfl | zeros) | inDigits
      · rfl
      · rfl
      · exact zero zeros
      · exact significant inDigits

theorem isNumberChar_of_mem_magnitudeText {x : Binary64} {c : Char}
    (member : c ∈ (magnitudeText x).toList) : isNumberChar c = true := by
  rw [magnitudeText] at member
  split at member
  · exact isNumberChar_of_mem_toString member
  · exact isNumberChar_of_mem_positional member

theorem isNumberChar_of_mem_negative {text : String}
    (all : ∀ c ∈ text.toList, isNumberChar c = true) {c : Char}
    (member : c ∈ ("-" ++ text).toList) : isNumberChar c = true := by
  rw [String.toList_append] at member
  rcases List.mem_append.1 member with isSign | inText
  · obtain rfl := List.mem_singleton.1 isSign
    rfl
  · exact all c inText

/-- Numbers are written with digits, a sign and a point. -/
theorem isNumberChar_of_mem_numberText {n : Json.Number} {c : Char}
    (member : c ∈ (numberText n).toList) : isNumberChar c = true := by
  cases n with
  | integer n =>
      cases n with
      | ofNat n => exact isNumberChar_of_mem_toString member
      | negSucc n =>
          exact isNumberChar_of_mem_negative (fun _ inDigits => isNumberChar_of_mem_toString inDigits)
            member
  | real x =>
      rw [numberText] at member
      split at member
      · obtain rfl := List.mem_singleton.1 member
        rfl
      · split at member
        · exact isNumberChar_of_mem_negative
            (fun _ inText => isNumberChar_of_mem_magnitudeText inText) member
        · exact isNumberChar_of_mem_magnitudeText member

/-! ## Arrays, objects and members -/

theorem nested_propertyKey (key : String) : Nested (propertyKey key).toList := by
  rw [propertyKey]
  split
  · next bare => exact nested_identifier bare
  · exact nested_quote key

theorem isGroup_arrayText {items : List String} (all : ∀ item ∈ items, Nested item.toList) :
    IsGroup ('[', ']') (arrayText items).toList := by
  have inside : Nested (", ".intercalate items).toList :=
    Nested.intercalate (Nested.of_plain (by decide)) all
  refine ⟨_, inside, ?_⟩
  rw [arrayText, String.append_assoc, String.toList_append, String.toList_append]
  rfl

theorem nested_entryText {key text : String} (nested : Nested text.toList) :
    Nested (entryText (key, text)).toList :=
  Nested.of_append (Nested.of_append (nested_propertyKey key) (Nested.of_plain (by decide))) nested

theorem isGroup_objectText {entries : List (String × String)}
    (all : ∀ entry ∈ entries, Nested entry.2.toList) :
    IsGroup ('{', '}') (objectText entries).toList := by
  have inside : Nested (", ".intercalate (entries.map entryText)).toList := by
    refine Nested.intercalate (Nested.of_plain (by decide)) fun text member => ?_
    obtain ⟨⟨key, value⟩, isEntry, rfl⟩ := List.mem_map.1 member
    exact nested_entryText (all _ isEntry)
  rw [objectText]
  split
  · exact ⟨[], .nil, rfl⟩
  · have padded : Nested (' ' :: ((", ".intercalate (entries.map entryText)).toList ++ [' '])) :=
      .plain (by decide) (inside.append (.plain (by decide) .nil))
    refine ⟨_, padded, ?_⟩
    rw [String.toList_append, String.toList_append]
    simp

theorem nested_optionalMember {object : String} (nested : Nested object.toList) (key : String) :
    Nested (optionalMember object key).toList := by
  rw [optionalMember]
  split
  · next bare =>
      exact Nested.of_append (Nested.of_append nested (Nested.of_plain (by decide)))
        (nested_identifier bare)
  · have opened : Nested ('[' :: ((quote key).toList ++ [']'])) :=
      .group ('[', ']') (by decide) (nested_quote key) .nil
    have mark : Nested "?.".toList := Nested.of_plain (by decide)
    have whole := (nested.append mark).append opened
    rw [String.toList_append, String.toList_append, String.toList_append]
    simpa using whole

namespace Expr

/-- Induction over expressions: the hypothesis holds of all items and of all values of entries. -/
@[elab_as_elim]
theorem nestedInduction {motive : Expr → Prop}
    (literal : ∀ value, motive (.literal value))
    (input : ∀ category key, motive (.input category key)) (nested : motive .nested)
    (array : ∀ items, (∀ item ∈ items, motive item) → motive (.array items))
    (object : ∀ entries, (∀ entry ∈ entries, motive entry.2) → motive (.object entries)) :
    ∀ expr, motive expr
  | .literal value => literal value
  | .input category key => input category key
  | .nested => nested
  | .array items => array items fun item _ =>
      nestedInduction literal input nested array object item
  | .object entries => object entries fun entry _ =>
      nestedInduction literal input nested array object entry.2
termination_by expr => sizeOf expr
decreasing_by
  · have smaller := List.sizeOf_lt_of_mem ‹item ∈ items›
    simp only [Expr.array.sizeOf_spec]
    omega
  · have smaller := List.sizeOf_lt_of_mem ‹entry ∈ entries›
    obtain ⟨key, value⟩ := entry
    simp only [Expr.object.sizeOf_spec, Prod.mk.sizeOf_spec] at smaller ⊢
    omega

end Expr

/-- The brackets of a literal nest properly. -/
theorem nested_literal (value : Json) : Nested (literal value).toList := by
  induction value using Json.nested with
  | null => exact Nested.of_plain (by decide)
  | bool b => cases b <;> exact Nested.of_plain (by decide)
  | number n =>
      exact Nested.of_plain (List.all_eq_true.2 fun _ member =>
        isPlain_of_kind isNumberChar (by decide) (isNumberChar_of_mem_numberText member))
  | string s => exact nested_quote s
  | array items ih =>
      rw [literal, literals_eq_map]
      exact (isGroup_arrayText (List.forall_mem_map.2 ih)).nested (by decide)
  | object members ih =>
      rw [literal, literalEntries_eq_map]
      exact (isGroup_objectText (List.forall_mem_map.2 ih)).nested (by decide)

/-- The brackets of an expression nest properly. -/
theorem Expr.nested_text (expr : Expr) : Nested expr.text.toList := by
  induction expr using Expr.nestedInduction with
  | literal value => exact nested_literal value
  | input category key =>
      refine nested_optionalMember ?_ key
      cases category <;> exact Nested.of_plain (by decide)
  | nested => exact Nested.of_plain (by decide)
  | array items ih =>
      rw [Expr.text, texts_eq_map]
      exact (isGroup_arrayText (List.forall_mem_map.2 ih)).nested (by decide)
  | object entries ih =>
      rw [Expr.text, entryTexts_eq_map]
      exact (isGroup_objectText (List.forall_mem_map.2 ih)).nested (by decide)

end ComponentGen.JavaScript
