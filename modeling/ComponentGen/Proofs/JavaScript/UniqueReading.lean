import ComponentGen.Proofs.JavaScript.Brackets
import ComponentGen.Proofs.JavaScript.Strings
import ComponentGen.Proofs.Number.Shortest
/-!
# Literals are read in one way

The text of a literal tells by its first character what kind of value it is, and where it ends: a
string at its quote, an array or object at its bracket, a number in front of the first character that
is no digit. So values with integers as their only numbers are known from their literals, also when
other text follows. Two doubles may be written alike, or like an integer, which is why they are left
out here. Control characters do not occur in a literal, whatever its strings are.
-/

namespace ComponentGen

namespace Json

mutual

/-- The numbers of a value at any depth, in order. -/
def numbers : Json → List Number
  | number n => [n]
  | array items => itemNumbers items
  | object members => memberNumbers members
  | null | bool _ | string _ => []

def itemNumbers : List Json → List Number
  | [] => []
  | item :: rest => numbers item ++ itemNumbers rest

def memberNumbers : List (String × Json) → List Number
  | [] => []
  | (_, value) :: rest => numbers value ++ memberNumbers rest

end

theorem itemNumbers_eq_flatMap (items : List Json) : itemNumbers items = items.flatMap numbers := by
  induction items with
  | nil => rfl
  | cons item rest ih => rw [itemNumbers, ih, List.flatMap_cons]

theorem memberNumbers_eq_flatMap (members : List (String × Json)) :
    memberNumbers members = members.flatMap fun member => numbers member.2 := by
  induction members with
  | nil => rfl
  | cons member rest ih => rw [memberNumbers, ih, List.flatMap_cons]

/-- The number is kept as an integer. -/
def Number.isInteger : Number → Bool
  | integer _ => true
  | real _ => false

/-- All numbers of the value are integers. -/
def WholeNumbers (value : Json) : Prop :=
  ∀ n ∈ value.numbers, n.isInteger = true

instance (value : Json) : Decidable value.WholeNumbers :=
  inferInstanceAs (Decidable (∀ n ∈ value.numbers, n.isInteger = true))

theorem wholeNumbers_number {n : Number} :
    (number n).WholeNumbers ↔ ∃ value, n = .integer value := by
  rw [WholeNumbers, numbers, List.forall_mem_singleton]
  cases n <;> simp [Number.isInteger]

theorem wholeNumbers_array {items : List Json} :
    (array items).WholeNumbers ↔ ∀ item ∈ items, item.WholeNumbers := by
  rw [WholeNumbers, numbers, itemNumbers_eq_flatMap, List.forall_mem_flatMap]
  rfl

theorem wholeNumbers_object {members : List (String × Json)} :
    (object members).WholeNumbers ↔ ∀ member ∈ members, member.2.WholeNumbers := by
  rw [WholeNumbers, numbers, memberNumbers_eq_flatMap, List.forall_mem_flatMap]
  rfl

/-- The kinds of values. -/
inductive Kind where
  | null
  | bool
  | number
  | string
  | array
  | object

/-- The kind of a value. -/
def kind : Json → Kind
  | null => .null
  | bool _ => .bool
  | number _ => .number
  | string _ => .string
  | array _ => .array
  | object _ => .object

end Json

namespace JavaScript

open Text (Delimits EndsRun ReadsOnlyAs endsRun_cons)

/-! ## Names, strings and numbers -/

/-- An identifier ends in front of the first character that is no part of one. -/
theorem identifier_append_inj {name other : String} {behind otherBehind : List Char}
    (isName : isIdentifier name = true) (otherIsName : isIdentifier other = true)
    (ends : EndsRun isIdentifierPart behind) (otherEnds : EndsRun isIdentifierPart otherBehind)
    (same : name.toList ++ behind = other.toList ++ otherBehind) :
    name = other ∧ behind = otherBehind :=
  (Text.run_append_inj (fun _ => isIdentifierPart_of_mem isName)
    (fun _ => isIdentifierPart_of_mem otherIsName) ends otherEnds same).imp_left String.toList_inj.1

/-- A string literal ends at its quote. -/
theorem quote_append_inj {s other : String} {behind otherBehind : List Char}
    (same : (quote s).toList ++ behind = (quote other).toList ++ otherBehind) :
    s = other ∧ behind = otherBehind := by
  have read := stringLiteral?_quote s behind
  rw [same, stringLiteral?_quote] at read
  exact (Prod.mk.inj (Option.some.inj read)).imp Eq.symm Eq.symm

theorem quote_eq_cons (s : String) : ∃ rest, (quote s).toList = '"' :: rest :=
  ⟨s.toList.flatMap escapeChar ++ ['"'], by rw [quote, String.toList_ofList]; rfl⟩

theorem identifier_eq_cons {name : String} (isName : isIdentifier name = true) :
    ∃ c rest, name.toList = c :: rest ∧ isIdentifierPart c = true := by
  have parts (c : Char) (member : c ∈ name.toList) : isIdentifierPart c = true :=
    isIdentifierPart_of_mem isName member
  cases chars : name.toList with
  | nil =>
      rw [isIdentifier, chars] at isName
      cases isName
  | cons c rest => exact ⟨c, rest, rfl, parts c (chars ▸ List.mem_cons_self)⟩

/-- A key starts with a quote or with a part of an identifier. -/
theorem propertyKey_eq_cons (key : String) :
    ∃ c rest, (propertyKey key).toList = c :: rest ∧ (c = '"' ∨ isIdentifierPart c = true) := by
  rw [propertyKey]
  split
  · next bare =>
      obtain ⟨c, rest, chars, part⟩ := identifier_eq_cons bare
      exact ⟨c, rest, chars, .inr part⟩
  · obtain ⟨rest, chars⟩ := quote_eq_cons key
    exact ⟨'"', rest, chars, .inl rfl⟩

/-- A key ends at its quote, or at the colon behind an identifier. -/
theorem propertyKey_append_inj {key other : String} {behind otherBehind : List Char}
    (same : (propertyKey key).toList ++ ':' :: behind =
      (propertyKey other).toList ++ ':' :: otherBehind) : key = other ∧ behind = otherBehind := by
  have colon {rest : List Char} : EndsRun isIdentifierPart (':' :: rest) := endsRun_cons rfl rest
  have notQuote {name s : String} {rest later : List Char} (isName : isIdentifier name = true) :
      name.toList ++ rest ≠ (quote s).toList ++ later := by
    obtain ⟨c, more, chars, part⟩ := identifier_eq_cons isName
    obtain ⟨quoted, isQuoted⟩ := quote_eq_cons s
    rw [chars, isQuoted, List.cons_append, List.cons_append]
    intro same
    obtain rfl := (List.cons.inj same).1
    cases part
  rw [propertyKey, propertyKey] at same
  split at same
  · next bare =>
      split at same
      · next otherBare =>
          exact (identifier_append_inj bare otherBare colon colon same).imp_right List.tail_eq_of_cons_eq
      · exact absurd same (notQuote bare)
  · split at same
    · next otherBare => exact absurd same.symm (notQuote otherBare)
    · exact (quote_append_inj same).imp_right List.tail_eq_of_cons_eq

theorem toList_numberText_ofNat (n : Nat) :
    (numberText (.integer (.ofNat n))).toList = Nat.toDigits 10 n :=
  Nat.toList_repr

theorem toList_numberText_negSucc (n : Nat) :
    (numberText (.integer (.negSucc n))).toList = '-' :: Nat.toDigits 10 (n + 1) := by
  rw [numberText, Int.toString_eq_repr, Int.repr, String.toList_append, Nat.toList_repr]
  rfl

theorem magnitudeText_ne_nil {x : Binary64} (notZero : x.isZero = false) :
    (magnitudeText x).toList ≠ [] := by
  rw [magnitudeText]
  split
  · rw [Text.toList_toString]
    exact Nat.toDigits_ne_nil
  · exact positional_ne_nil (Binary64.shortest_ne notZero .up)

/-- Every number is written with some character. -/
theorem numberText_ne_nil (n : Json.Number) : (numberText n).toList ≠ [] := by
  cases n with
  | integer k =>
      cases k with
      | ofNat k =>
          rw [toList_numberText_ofNat]
          exact Nat.toDigits_ne_nil
      | negSucc k =>
          rw [toList_numberText_negSucc]
          exact List.cons_ne_nil _ _
  | real x =>
      rw [numberText]
      split
      · exact List.cons_ne_nil _ _
      · next notZero =>
          split
          · rw [String.toList_append]
            exact List.cons_ne_nil _ _
          · exact magnitudeText_ne_nil (Bool.eq_false_iff.2 notZero)

/-- An integer ends in front of the first character that is no digit. -/
theorem integer_append_inj {n m : Int} {behind otherBehind : List Char}
    (ends : EndsRun Char.isDigit behind) (otherEnds : EndsRun Char.isDigit otherBehind)
    (same : (numberText (.integer n)).toList ++ behind =
      (numberText (.integer m)).toList ++ otherBehind) : n = m ∧ behind = otherBehind := by
  have digits (k : Nat) : ∀ c ∈ Nat.toDigits 10 k, c.isDigit = true := fun _ =>
    Text.isDigit_of_mem_toDigits
  have unsigned {k l : Nat}
      (same : Nat.toDigits 10 k ++ behind = Nat.toDigits 10 l ++ otherBehind) :
      k = l ∧ behind = otherBehind :=
    (Text.run_append_inj (digits k) (digits l) ends otherEnds same).imp_left Text.toDigits_inj
  have notSigned {k : Nat} {rest later : List Char} : Nat.toDigits 10 k ++ rest ≠ '-' :: later := by
    intro same
    cases chars : Nat.toDigits 10 k with
    | nil => exact Nat.toDigits_ne_nil chars
    | cons c more =>
        rw [chars] at same
        obtain rfl := (List.cons.inj same).1
        exact absurd (digits k '-' (chars ▸ List.mem_cons_self)) (by decide)
  cases n with
  | ofNat k =>
      rw [toList_numberText_ofNat] at same
      cases m with
      | ofNat l =>
          rw [toList_numberText_ofNat] at same
          exact (unsigned same).imp_left (congrArg Int.ofNat)
      | negSucc l =>
          rw [toList_numberText_negSucc] at same
          exact absurd same notSigned
  | negSucc k =>
      rw [toList_numberText_negSucc] at same
      cases m with
      | ofNat l =>
          rw [toList_numberText_ofNat] at same
          exact absurd same.symm notSigned
      | negSucc l =>
          rw [toList_numberText_negSucc] at same
          obtain ⟨numbers, later⟩ := unsigned (List.cons.inj same).2
          exact ⟨congrArg Int.negSucc (Nat.succ.inj numbers), later⟩

/-! ## Kinds of values -/

/-- The kind of value that a literal with this first character is of. -/
def kindOf? (c : Char) : Option Json.Kind :=
  if isNumberChar c then some .number
  else if c = 'n' then some .null
  else if c = 't' ∨ c = 'f' then some .bool
  else if c = '"' then some .string
  else if c = '[' then some .array
  else if c = '{' then some .object
  else none

/-- The first character of a literal tells the kind of the value. -/
theorem literal_eq_cons (value : Json) :
    ∃ c rest, (literal value).toList = c :: rest ∧ kindOf? c = some value.kind := by
  cases value with
  | null => exact ⟨'n', ['u', 'l', 'l'], rfl, rfl⟩
  | bool b =>
      cases b with
      | false => exact ⟨'f', ['a', 'l', 's', 'e'], rfl, rfl⟩
      | true => exact ⟨'t', ['r', 'u', 'e'], rfl, rfl⟩
  | number n =>
      obtain ⟨c, rest, chars⟩ := List.exists_cons_of_ne_nil (numberText_ne_nil n)
      have first : c ∈ (numberText n).toList := chars ▸ List.mem_cons_self
      exact ⟨c, rest, chars, if_pos (isNumberChar_of_mem_numberText first)⟩
  | string s =>
      obtain ⟨rest, chars⟩ := quote_eq_cons s
      exact ⟨'"', rest, chars, rfl⟩
  | array items =>
      refine ⟨'[', (", ".intercalate (literals items)).toList ++ [']'], ?_, rfl⟩
      rw [literal, arrayText, String.toList_append, String.toList_append]
      rfl
  | object members =>
      rw [literal, objectText]
      split
      · exact ⟨'{', ['}'], rfl, rfl⟩
      · refine ⟨'{', ' ' :: ((", ".intercalate ((literalEntries members).map entryText)).toList ++
          [' ', '}']), ?_, rfl⟩
        rw [String.toList_append, String.toList_append]
        rfl

/-- Literals of values of different kinds are different from the first character on. -/
theorem kind_eq_of_append_eq {value other : Json} {behind otherBehind : List Char}
    (same : (literal value).toList ++ behind = (literal other).toList ++ otherBehind) :
    value.kind = other.kind := by
  obtain ⟨c, rest, chars, kind⟩ := literal_eq_cons value
  obtain ⟨d, more, otherChars, otherKind⟩ := literal_eq_cons other
  rw [chars, otherChars] at same
  obtain rfl := (List.cons.inj same).1
  exact Option.some.inj (kind.symm.trans otherKind)

/-! ## Literals -/

/-- The text of a value. -/
def writeValue (value : Json) : List Char :=
  (literal value).toList

/-- The text of a member of an object. -/
def writeMember (member : String × Json) : List Char :=
  (entryText (member.1, literal member.2)).toList

theorem writeValue_array (items : List Json) :
    writeValue (.array items) =
      '[' :: ([',', ' '].intercalate (items.map writeValue) ++ [']']) := by
  rw [writeValue, literal, literals_eq_map, arrayText, String.toList_append, String.toList_append,
    String.toList_intercalate, List.map_map]
  rfl

theorem writeMember_eq (member : String × Json) :
    writeMember member =
      (propertyKey member.1).toList ++ ':' :: ' ' :: writeValue member.2 := by
  rw [writeMember, entryText, String.toList_append, String.toList_append, List.append_assoc]
  rfl

theorem writeValue_object {members : List (String × Json)} (nonempty : members ≠ []) :
    writeValue (.object members) =
      '{' :: ' ' :: ([',', ' '].intercalate (members.map writeMember) ++ [' ', '}']) := by
  have notEmpty : (members.map fun member => (member.1, literal member.2)).isEmpty = false := by
    rw [List.isEmpty_map, List.isEmpty_eq_false_iff]
    exact nonempty
  rw [writeValue, literal, literalEntries_eq_map, objectText, notEmpty, if_neg Bool.false_ne_true,
    String.toList_append, String.toList_append, String.toList_intercalate, List.map_map,
    List.map_map]
  rfl

/-- The items of an array are told from what closes it. -/
theorem delimits_items :
    Delimits writeValue Json.WholeNumbers (EndsRun Char.isDigit) [',', ' '] [']'] where
  item_ne item _ behind later same := by
    obtain ⟨c, rest, chars, kind⟩ := literal_eq_cons item
    rw [writeValue, chars] at same
    obtain rfl := (List.cons.inj same).1
    have noKind : kindOf? ']' = none := rfl
    cases noKind.symm.trans kind
  separator_ne _ _ _ _ same := absurd (List.cons.inj same).1 (by decide)
  ends_separator _ _ _ := endsRun_cons rfl _
  ends_closing _ := endsRun_cons rfl _

/-- The members of an object are told from what closes it. -/
theorem delimits_members :
    Delimits writeMember (fun member => member.2.WholeNumbers) (EndsRun Char.isDigit) [',', ' ']
      [' ', '}'] where
  item_ne member _ behind later same := by
    obtain ⟨c, rest, chars, first⟩ := propertyKey_eq_cons member.1
    rw [writeMember_eq, chars] at same
    obtain rfl := (List.cons.inj same).1
    exact absurd first (by decide)
  separator_ne _ _ _ _ same := absurd (List.cons.inj same).1 (by decide)
  ends_separator _ _ _ := endsRun_cons rfl _
  ends_closing _ := endsRun_cons rfl _

/-- A member is read by its key and its value. -/
theorem member_readsOnlyAs {member : String × Json}
    (value : ReadsOnlyAs writeValue Json.WholeNumbers (EndsRun Char.isDigit) member.2) :
    ReadsOnlyAs writeMember (fun member => member.2.WholeNumbers) (EndsRun Char.isDigit)
      member := by
  intro other otherWhole behind otherBehind ends otherEnds same
  rw [writeMember_eq, writeMember_eq, List.append_assoc, List.append_assoc] at same
  obtain ⟨sameKey, later⟩ := propertyKey_append_inj same
  obtain ⟨sameValue, closed⟩ := value other.2 otherWhole behind otherBehind ends otherEnds
    (List.tail_eq_of_cons_eq later)
  exact ⟨Prod.ext sameKey sameValue, closed⟩

/-- An array is read item by item up to its bracket. -/
theorem array_append_inj {items others : List Json} {behind otherBehind : List Char}
    (each : ∀ item ∈ items,
      ReadsOnlyAs writeValue Json.WholeNumbers (EndsRun Char.isDigit) item)
    (whole : ∀ item ∈ items, item.WholeNumbers) (otherWhole : ∀ item ∈ others, item.WholeNumbers)
    (same : writeValue (.array items) ++ behind = writeValue (.array others) ++ otherBehind) :
    items = others ∧ behind = otherBehind := by
  rw [writeValue_array, writeValue_array, List.cons_append, List.cons_append, List.append_assoc,
    List.append_assoc] at same
  exact delimits_items.intercalate_append_inj each whole otherWhole (List.cons.inj same).2

/-- An object is read member by member up to its bracket; one without members has no blanks. -/
theorem object_append_inj {members others : List (String × Json)} {behind otherBehind : List Char}
    (each : ∀ member ∈ members, ReadsOnlyAs writeMember (fun member => member.2.WholeNumbers)
      (EndsRun Char.isDigit) member)
    (whole : ∀ member ∈ members, member.2.WholeNumbers)
    (otherWhole : ∀ member ∈ others, member.2.WholeNumbers)
    (same : writeValue (.object members) ++ behind = writeValue (.object others) ++ otherBehind) :
    members = others ∧ behind = otherBehind := by
  by_cases empty : members = []
  · subst empty
    by_cases otherEmpty : others = []
    · subst otherEmpty
      exact ⟨rfl, List.append_cancel_left same⟩
    · rw [writeValue_object otherEmpty] at same
      exact absurd (List.cons.inj (List.cons.inj same).2).1 (by decide)
  · by_cases otherEmpty : others = []
    · subst otherEmpty
      rw [writeValue_object empty] at same
      exact absurd (List.cons.inj (List.cons.inj same).2).1 (by decide)
    · rw [writeValue_object empty, writeValue_object otherEmpty, List.cons_append,
        List.cons_append, List.cons_append, List.cons_append, List.append_assoc,
        List.append_assoc] at same
      exact delimits_members.intercalate_append_inj each whole otherWhole
        (List.cons.inj (List.cons.inj same).2).2

/-- A value with integers as its only numbers is known from its literal, wherever that stands in
front of a text that goes on without a digit. -/
theorem value_readsOnlyAs {value : Json} (whole : value.WholeNumbers) :
    ReadsOnlyAs writeValue Json.WholeNumbers (EndsRun Char.isDigit) value := by
  induction value using Json.nested with
  | null =>
      intro other otherWhole behind otherBehind _ _ same
      have sameKind := kind_eq_of_append_eq same
      cases other with
      | null => exact ⟨rfl, List.append_cancel_left same⟩
      | _ => cases sameKind
  | bool b =>
      intro other otherWhole behind otherBehind _ _ same
      have sameKind := kind_eq_of_append_eq same
      cases other with
      | bool c =>
          cases b <;> cases c
          · exact ⟨rfl, List.append_cancel_left same⟩
          · exact absurd (List.cons.inj same).1 (by decide)
          · exact absurd (List.cons.inj same).1 (by decide)
          · exact ⟨rfl, List.append_cancel_left same⟩
      | _ => cases sameKind
  | number n =>
      intro other otherWhole behind otherBehind ends otherEnds same
      have sameKind := kind_eq_of_append_eq same
      cases other with
      | number m =>
          obtain ⟨k, rfl⟩ := Json.wholeNumbers_number.1 whole
          obtain ⟨l, rfl⟩ := Json.wholeNumbers_number.1 otherWhole
          obtain ⟨rfl, later⟩ := integer_append_inj ends otherEnds same
          exact ⟨rfl, later⟩
      | _ => cases sameKind
  | string s =>
      intro other otherWhole behind otherBehind _ _ same
      have sameKind := kind_eq_of_append_eq same
      cases other with
      | string t => exact (quote_append_inj same).imp_left (congrArg Json.string)
      | _ => cases sameKind
  | array items ih =>
      intro other otherWhole behind otherBehind _ _ same
      have sameKind := kind_eq_of_append_eq same
      cases other with
      | array others =>
          rw [Json.wholeNumbers_array] at whole otherWhole
          exact (array_append_inj (fun item member => ih item member (whole item member)) whole
            otherWhole same).imp_left (congrArg Json.array)
      | _ => cases sameKind
  | object members ih =>
      intro other otherWhole behind otherBehind _ _ same
      have sameKind := kind_eq_of_append_eq same
      cases other with
      | object others =>
          rw [Json.wholeNumbers_object] at whole otherWhole
          exact (object_append_inj
            (fun member inside => member_readsOnlyAs (ih member inside (whole member inside))) whole
            otherWhole same).imp_left (congrArg Json.object)
      | _ => cases sameKind

/-! ## Control characters -/

/-- The character is no control character, so it breaks no line. -/
def IsVisible (c : Char) : Prop := 0x20 ≤ c.toNat

instance (c : Char) : Decidable (IsVisible c) :=
  Nat.decLe 0x20 c.toNat

/-- Characters that are given one by one. -/
theorem isVisible_of_all {chars : List Char}
    (visible : chars.all (fun c => decide (IsVisible c)) = true) : ∀ c ∈ chars, IsVisible c :=
  fun c member => of_decide_eq_true (List.all_eq_true.1 visible c member)

theorem isVisible_of_kind (isKind : Char → Bool)
    (noControl : ∀ n < 0x20, isKind (Char.ofNat n) = false) {c : Char} (kind : isKind c = true) :
    IsVisible c := by
  refine Nat.le_of_not_lt fun control => ?_
  have notKind := noControl c.toNat control
  rw [Char.ofNat_toNat, kind] at notKind
  cases notKind

theorem isVisible_of_mem_identifier {name : String} (isName : isIdentifier name = true) :
    ∀ c ∈ name.toList, IsVisible c := fun _ member =>
  isVisible_of_kind isIdentifierPart (by decide) (isIdentifierPart_of_mem isName member)

theorem isVisible_of_mem_escapeChar (c : Char) : ∀ d ∈ escapeChar c, IsVisible d := by
  have hex : ∀ n < 16, IsVisible (hexDigit n) := by decide
  unfold escapeChar
  split
  · exact isVisible_of_all rfl
  split
  · exact isVisible_of_all rfl
  split
  · exact isVisible_of_all rfl
  split
  · exact isVisible_of_all rfl
  split
  · exact isVisible_of_all rfl
  split
  · exact isVisible_of_all rfl
  split
  · exact isVisible_of_all rfl
  split
  · next control =>
      simp only [List.forall_mem_cons, List.not_mem_nil, IsEmpty.forall_iff, implies_true, and_true]
      exact ⟨by decide, by decide, by decide, by decide, hex _ (by omega),
        hex _ (Nat.mod_lt _ (by decide))⟩
  · next notControl => exact List.forall_mem_singleton.2 (Nat.le_of_not_lt notControl)

theorem isVisible_of_mem_quote (s : String) : ∀ c ∈ (quote s).toList, IsVisible c := by
  rw [quote, String.toList_ofList, List.forall_mem_append, List.forall_mem_cons]
  refine ⟨⟨by decide, fun c member => ?_⟩, isVisible_of_all rfl⟩
  obtain ⟨d, -, inEscape⟩ := List.mem_flatMap.1 member
  exact isVisible_of_mem_escapeChar d c inEscape

theorem isVisible_of_mem_propertyKey (key : String) :
    ∀ c ∈ (propertyKey key).toList, IsVisible c := by
  rw [propertyKey]
  split
  · next bare => exact isVisible_of_mem_identifier bare
  · exact isVisible_of_mem_quote key

/-- Texts without control characters, joined by a comma and a space. -/
theorem isVisible_of_mem_intercalate {α : Type} {write : α → List Char} {items : List α}
    (each : ∀ item ∈ items, ∀ c ∈ write item, IsVisible c) :
    ∀ c ∈ [',', ' '].intercalate (items.map write), IsVisible c := by
  intro c member
  have separator : ∀ c ∈ [',', ' '], IsVisible c := isVisible_of_all rfl
  rcases Text.mem_intercalate member with inSeparator | ⟨_, isPiece, inPiece⟩
  · exact separator c inSeparator
  · obtain ⟨item, isItem, rfl⟩ := List.mem_map.1 isPiece
    exact each item isItem c inPiece

/-- A literal has no control characters. -/
theorem isVisible_of_mem_writeValue (value : Json) : ∀ c ∈ writeValue value, IsVisible c := by
  induction value using Json.nested with
  | null => exact isVisible_of_all rfl
  | bool b => cases b <;> exact isVisible_of_all rfl
  | number n => exact fun _ member =>
      isVisible_of_kind isNumberChar (by decide) (isNumberChar_of_mem_numberText member)
  | string s => exact isVisible_of_mem_quote s
  | array items ih =>
      rw [writeValue_array, List.forall_mem_cons, List.forall_mem_append]
      exact ⟨by decide, isVisible_of_mem_intercalate ih, isVisible_of_all rfl⟩
  | object members ih =>
      by_cases empty : members = []
      · subst empty
        exact isVisible_of_all rfl
      · have each : ∀ member ∈ members, ∀ c ∈ writeMember member, IsVisible c := by
          intro member inside
          rw [writeMember_eq, List.forall_mem_append, List.forall_mem_cons, List.forall_mem_cons]
          exact ⟨isVisible_of_mem_propertyKey member.1, by decide, by decide, ih member inside⟩
        rw [writeValue_object empty, List.forall_mem_cons, List.forall_mem_cons,
          List.forall_mem_append]
        exact ⟨by decide, by decide, isVisible_of_mem_intercalate each, isVisible_of_all rfl⟩

end JavaScript

end ComponentGen
