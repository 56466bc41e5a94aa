import ComponentGen.Proofs.JavaScript.UniqueReading
/-!
# Literals that end by themselves

Where brackets nest properly, the first bracket that closes more than was opened is known without a
look at what follows it. So the literal of an array or object ends at the bracket that closes its
first one, and the literal of a string at its closing quote: none of them goes on as another
literal. A number has no such end: `1` goes on as `12`.
-/

namespace ComponentGen

namespace Jsx

/-! ## What the first character tells -/

/-- What a character is for the nesting of brackets. -/
inductive Role where
  | plain
  | quote
  | opening
  | closing
deriving DecidableEq

/-- The role of a character outside of strings. -/
def roleOf (c : Char) : Role :=
  if isPlain c then .plain
  else if c = '"' then .quote
  else if c ∈ brackets.map Prod.fst then .opening
  else .closing

theorem roleOf_plain {c : Char} (plain : isPlain c = true) : roleOf c = .plain :=
  if_pos plain

theorem roleOf_quote : roleOf '"' = .quote := by
  decide

theorem roleOf_opening {pair : Char × Char} (matching : pair ∈ brackets) :
    roleOf pair.1 = .opening := by
  have all : ∀ pair ∈ brackets, roleOf pair.1 = .opening := by decide
  exact all pair matching

theorem roleOf_closing {pair : Char × Char} (matching : pair ∈ brackets) :
    roleOf pair.2 = .closing := by
  have all : ∀ pair ∈ brackets, roleOf pair.2 = .closing := by decide
  exact all pair matching

/-- A bracket opens only one kind of pairs. -/
theorem eq_of_opening_eq {pair other : Char × Char} (matching : pair ∈ brackets)
    (otherMatching : other ∈ brackets) (same : pair.1 = other.1) : pair = other := by
  have all : ∀ pair ∈ brackets, ∀ other ∈ brackets, pair.1 = other.1 → pair = other := by decide
  exact all pair matching other otherMatching same

theorem cons_ne_of_role {c d : Char} {role other : Role} (first : roleOf c = role)
    (otherFirst : roleOf d = other) (different : role ≠ other) {rest later : List Char} :
    c :: rest ≠ d :: later := by
  intro same
  rw [← first, ← otherFirst, (List.cons.inj same).1] at different
  exact different rfl

/-! ## Where strings and brackets are closed -/

/-- The body of a string ends at the first quote that no backslash goes with. -/
theorem IsStringBody.append_quote_inj {body other rest otherRest : List Char}
    (isBody : IsStringBody body) (otherIsBody : IsStringBody other)
    (same : body ++ '"' :: rest = other ++ '"' :: otherRest) : body = other ∧ rest = otherRest := by
  induction isBody generalizing other with
  | nil =>
      cases otherIsBody with
      | nil => exact ⟨rfl, (List.cons.inj same).2⟩
      | plain notQuote _ _ => exact absurd (List.cons.inj same).1.symm notQuote
      | escape _ _ => exact absurd (List.cons.inj same).1 (by decide)
  | plain notQuote notBackslash _ ih =>
      cases otherIsBody with
      | nil => exact absurd (List.cons.inj same).1 notQuote
      | plain _ _ later =>
          obtain ⟨rfl, tails⟩ := List.cons.inj same
          exact (ih later tails).imp_left (congrArg (_ :: ·))
      | escape _ _ => exact absurd (List.cons.inj same).1 notBackslash
  | escape c _ ih =>
      cases otherIsBody with
      | nil => exact absurd (List.cons.inj same).1 (by decide)
      | plain _ notBackslash _ => exact absurd (List.cons.inj same).1.symm notBackslash
      | escape _ later =>
          obtain ⟨rfl, tails⟩ := List.cons.inj (List.cons.inj same).2
          exact (ih later tails).imp_left (congrArg ('\\' :: _ :: ·))

/-- Properly nested brackets end in front of the first bracket that closes none of them. -/
theorem Nested.append_closing_inj {inside other rest otherRest : List Char} (nested : Nested inside)
    (otherNested : Nested other) {pair otherPair : Char × Char} (matching : pair ∈ brackets)
    (otherMatching : otherPair ∈ brackets)
    (same : inside ++ pair.2 :: rest = other ++ otherPair.2 :: otherRest) :
    inside = other ∧ rest = otherRest := by
  induction nested generalizing other pair otherPair rest otherRest with
  | nil =>
      have closes := roleOf_closing matching
      cases otherNested with
      | nil => exact ⟨rfl, (List.cons.inj same).2⟩
      | plain isPlain _ =>
          exact absurd same (cons_ne_of_role closes (roleOf_plain isPlain) (by decide))
      | string _ _ => exact absurd same (cons_ne_of_role closes roleOf_quote (by decide))
      | group _ inBrackets _ _ =>
          exact absurd same (cons_ne_of_role closes (roleOf_opening inBrackets) (by decide))
  | plain isPlain _ ih =>
      have plain := roleOf_plain isPlain
      cases otherNested with
      | nil => exact absurd same (cons_ne_of_role plain (roleOf_closing otherMatching) (by decide))
      | plain _ otherLater =>
          obtain ⟨rfl, tails⟩ := List.cons.inj same
          exact (ih otherLater matching otherMatching tails).imp_left (congrArg (_ :: ·))
      | string _ _ => exact absurd same (cons_ne_of_role plain roleOf_quote (by decide))
      | group _ inBrackets _ _ =>
          exact absurd same (cons_ne_of_role plain (roleOf_opening inBrackets) (by decide))
  | string isBody _ ih =>
      cases otherNested with
      | nil =>
          exact absurd same (cons_ne_of_role roleOf_quote (roleOf_closing otherMatching) (by decide))
      | plain isPlain _ =>
          exact absurd same (cons_ne_of_role roleOf_quote (roleOf_plain isPlain) (by decide))
      | string otherIsBody otherLater =>
          rw [List.cons_append, List.cons_append, List.append_assoc, List.append_assoc,
            List.cons_append, List.cons_append] at same
          obtain ⟨rfl, tails⟩ := isBody.append_quote_inj otherIsBody (List.cons.inj same).2
          obtain ⟨rfl, behind⟩ := ih otherLater matching otherMatching tails
          exact ⟨rfl, behind⟩
      | group _ inBrackets _ _ =>
          exact absurd same (cons_ne_of_role roleOf_quote (roleOf_opening inBrackets) (by decide))
  | group opened inBrackets _ _ insideIh ih =>
      have opens := roleOf_opening inBrackets
      cases otherNested with
      | nil => exact absurd same (cons_ne_of_role opens (roleOf_closing otherMatching) (by decide))
      | plain isPlain _ =>
          exact absurd same (cons_ne_of_role opens (roleOf_plain isPlain) (by decide))
      | string _ _ => exact absurd same (cons_ne_of_role opens roleOf_quote (by decide))
      | group otherOpened otherInBrackets otherInside otherLater =>
          rw [List.cons_append, List.cons_append, List.append_assoc, List.append_assoc,
            List.cons_append, List.cons_append] at same
          obtain ⟨sameOpening, tails⟩ := List.cons.inj same
          obtain rfl := eq_of_opening_eq inBrackets otherInBrackets sameOpening
          obtain ⟨rfl, later⟩ := insideIh otherInside inBrackets otherInBrackets tails
          obtain ⟨rfl, behind⟩ := ih otherLater matching otherMatching later
          exact ⟨rfl, behind⟩

/-- A text in brackets ends at the bracket that closes the first one. -/
theorem IsGroup.append_inj {pair : Char × Char} (matching : pair ∈ brackets)
    {text other behind otherBehind : List Char} (group : IsGroup pair text)
    (otherGroup : IsGroup pair other) (same : text ++ behind = other ++ otherBehind) :
    text = other ∧ behind = otherBehind := by
  obtain ⟨inside, nested, rfl⟩ := group
  obtain ⟨otherInside, otherNested, rfl⟩ := otherGroup
  rw [List.cons_append, List.cons_append, List.append_assoc, List.append_assoc,
    List.singleton_append, List.singleton_append] at same
  obtain ⟨rfl, later⟩ :=
    nested.append_closing_inj otherNested matching matching (List.cons.inj same).2
  exact ⟨rfl, later⟩

end Jsx

namespace Json.Kind

/-- The literals of values of this kind end with a quote or a bracket that closes them. -/
def isDelimited : Kind → Bool
  | string | array | object => true
  | null | bool | number => false

end Json.Kind

namespace JavaScript

open Jsx (IsGroup Nested)
open Text (EndsRun)

/-! ## Where literals end -/

/-- Values with integers as their only numbers are known from their literals. -/
theorem eq_of_literal_eq {value other : Json} (whole : value.WholeNumbers)
    (otherWhole : other.WholeNumbers) (same : literal value = literal other) : value = other := by
  have nothing : EndsRun Char.isDigit [] := fun _ first => nomatch first
  refine (value_readsOnlyAs whole other otherWhole [] [] nothing nothing ?_).1
  rw [writeValue, writeValue, same]

theorem isGroup_array (items : List Json) :
    IsGroup ('[', ']') (literal (.array items)).toList := by
  rw [literal, literals_eq_map]
  exact isGroup_arrayText (List.forall_mem_map.2 fun item _ => nested_literal item)

theorem isGroup_object (members : List (String × Json)) :
    IsGroup ('{', '}') (literal (.object members)).toList := by
  rw [literal, literalEntries_eq_map]
  exact isGroup_objectText (List.forall_mem_map.2 fun member _ => nested_literal member.2)

/-- Where the literal of a string, array or object stands in front of a text, no other literal can
be read, also not that of a value with doubles. -/
theorem literal_append_inj {value other : Json} (delimited : value.kind.isDelimited = true)
    {behind otherBehind : List Char}
    (same : (literal value).toList ++ behind = (literal other).toList ++ otherBehind) :
    literal value = literal other ∧ behind = otherBehind := by
  have sameKind := kind_eq_of_append_eq same
  cases value with
  | null | bool | number => cases delimited
  | string s =>
      cases other with
      | string t => exact (quote_append_inj same).imp_left (congrArg quote)
      | _ => cases sameKind
  | array items =>
      cases other with
      | array others =>
          exact ((isGroup_array items).append_inj (by decide) (isGroup_array others) same).imp_left
            String.toList_inj.1
      | _ => cases sameKind
  | object members =>
      cases other with
      | object others =>
          exact ((isGroup_object members).append_inj (by decide) (isGroup_object others)
            same).imp_left String.toList_inj.1
      | _ => cases sameKind

/-- A literal breaks no line. -/
theorem not_mem_literal {c : Char} (control : c.toNat < 0x20) (value : Json) :
    c ∉ (literal value).toList := fun member =>
  absurd (isVisible_of_mem_writeValue value c member) (Nat.not_le_of_lt control)

/-- Two different values with integers as their only numbers have different literals. The brackets
of any literal nest properly once its strings are passed over, and it stands on one line. The literal
of a string, array or object starts with no other literal of a value. -/
theorem literals_injective_selfDelimiting :
    (∀ value other : Json, value.WholeNumbers → other.WholeNumbers →
      literal value = literal other → value = other) ∧
    ∀ value : Json, Nested (literal value).toList ∧
      '\n' ∉ (literal value).toList ∧ '\r' ∉ (literal value).toList ∧
      (value.kind.isDelimited = true → ∀ other : Json,
        (literal other).toList <+: (literal value).toList → literal other = literal value) := by
  refine ⟨fun _ _ => eq_of_literal_eq, fun value => ⟨nested_literal value,
    not_mem_literal (by decide) value, not_mem_literal (by decide) value, ?_⟩⟩
  rintro delimited other ⟨behind, front⟩
  have same : (literal value).toList ++ [] = (literal other).toList ++ behind := by
    rw [List.append_nil, front]
  exact (literal_append_inj delimited same).1.symm

/-- An object with a number in an array, and with brackets in its strings and keys. -/
def bracketed (n : Json.Number) : Json :=
  .object [("open", .string "[\""), ("\x7d", .array [.number n, .object []])]

/-- The double that is one. -/
def doubleOne : Binary64 := ⟨false, Nat.pow 2 52, -52⟩

theorem literals_injective_selfDelimiting_bracketed :
    bracketed (.integer 1) = bracketed (.integer (3 - 2)) ∧
    Nested (literal (bracketed (.real doubleOne))).toList ∧
    literal (bracketed (.real doubleOne)) = literal (bracketed (.integer 1)) := by
  obtain ⟨known, delimited⟩ := literals_injective_selfDelimiting
  refine ⟨known _ _ (by decide) (by decide) (by decide +kernel), (delimited _).1,
    (delimited (bracketed (.integer 1))).2.2.2 rfl _ ?_⟩
  decide +kernel

end JavaScript

end ComponentGen
