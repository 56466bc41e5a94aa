import ComponentGen.Proofs.Declaration.Braces
/-!
# Members of a block

A member that is written as a key, a colon, a type and a semicolon is read as that member, and what
follows it is read as if it stood alone. For that the type must show where it ends. An object type
ends with the brace that closes it. Any other type ends in front of the semicolon, so no separator
may stand in it outside of all brackets, and it must close the brackets that it opens.
-/

namespace ComponentGen.Declaration

/-- The first token is an opening brace, and the last token is the brace that closes it. -/
def IsObjectType (tokens : List Token) : Prop :=
  tokens.head?.any (·.isPunct '{') = true ∧ tokens.getLast?.any (·.isPunct '}') = true ∧
    BracesBalance tokens.tail.dropLast

/-- No separator and no closing brace is met outside of all brackets, and none is open in the end.
`depth` brackets are open in front of the tokens. -/
def closesBrackets (depth : Nat) : List Token → Bool
  | [] => depth == 0
  | token :: rest =>
    !(depth == 0 && [';', ',', '}'].any token.isPunct) &&
      closesBrackets (bracketDepth token depth) rest

/-- The type is no object type, and shows its end by its brackets. -/
def IsPlainType (tokens : List Token) : Prop :=
  tokens.head?.any (·.isPunct '{') = false ∧ closesBrackets 0 tokens = true

instance (tokens : List Token) : Decidable (IsObjectType tokens) :=
  inferInstanceAs (Decidable (_ ∧ _ ∧ _))

instance (tokens : List Token) : Decidable (IsPlainType tokens) :=
  inferInstanceAs (Decidable (_ ∧ _))

/-- A key, a colon, a type and a semicolon. -/
def memberTokens (key : Token) (type : List Token) : List Token :=
  key :: ⟨"", .punct ':'⟩ :: (type ++ [⟨"", .punct ';'⟩])

theorem balance_memberTokens {key : Token} {type : List Token} (noBrace : key.rise = 0)
    (balance : BracesBalance type) : BracesBalance (memberTokens key type) :=
  .cons noBrace (.cons rfl (balance.append (.cons rfl .nil)))

/-! ## Types -/

theorem exists_body_of_isObjectType {tokens : List Token} (object : IsObjectType tokens) :
    ∃ opening body closing, tokens = opening :: (body ++ [closing]) ∧
      opening.isPunct '{' = true ∧ closing.isPunct '}' = true ∧ BracesBalance body := by
  obtain ⟨first, last, balance⟩ := object
  match tokens with
  | [] => cases first
  | [only] =>
      -- One token cannot be both braces.
      have opens : only.isPunct '{' = true := first
      have closes : only.isPunct '}' = true := last
      rw [isPunct_iff] at opens closes
      rw [opens] at closes
      cases closes
  | opening :: second :: rest =>
      have ends := List.dropLast_append_getLast (List.cons_ne_nil second rest)
      refine ⟨opening, (second :: rest).dropLast, (second :: rest).getLast _, by rw [ends],
        first, ?_, balance⟩
      rw [List.getLast?_cons_cons, List.getLast?_eq_some_getLast (List.cons_ne_nil second rest)]
        at last
      exact last

theorem isObjectType_pushGap {gap : List Char} {found : List Token × List Char} :
    IsObjectType (pushGap gap found).1 ↔ IsObjectType found.1 := by
  match found with
  | ([], _) => exact Iff.rfl
  | ([_], _) => exact Iff.rfl
  | (_ :: _ :: _, _) => exact Iff.rfl

theorem isPlainType_pushGap {gap : List Char} {found : List Token × List Char} :
    IsPlainType (pushGap gap found).1 ↔ IsPlainType found.1 := by
  match found with
  | ([], _) => exact Iff.rfl
  | (_ :: _, _) => exact Iff.rfl

theorem sourceText_pushGap (gap : List Char) (found : List Token × List Char) :
    Token.sourceText (pushGap gap found).1 = Token.sourceText found.1 := by
  match found with
  | ([], _) => rfl
  | (_ :: _, _) => rfl

/-- A type is read up to the semicolon behind it exactly if its brackets show its end there. -/
theorem splitType_eq_iff {depth : Nat} {tokens : List Token} (rest : List Token) :
    splitType depth (tokens ++ ⟨"", .punct ';'⟩ :: rest) = (tokens, ⟨"", .punct ';'⟩ :: rest) ↔
      closesBrackets depth tokens = true := by
  induction tokens generalizing depth with
  | nil =>
      rw [List.nil_append, closesBrackets, splitType, beq_iff_eq]
      cases depth with
      | zero => exact iff_of_true rfl rfl
      | succ depth =>
          refine iff_of_false ?_ (Nat.succ_ne_zero depth)
          intro same
          cases congrArg Prod.fst same
  | cons token tokens ih =>
      rw [List.cons_append, closesBrackets, splitType]
      by_cases stops : (depth = 0 && [';', ',', '}'].any token.isPunct) = true
      · rw [if_pos stops, Bool.and_eq_true]
        refine iff_of_false ?_ ?_
        · intro same
          cases congrArg Prod.fst same
        · rintro ⟨goesOn, -⟩
          rw [Bool.beq_eq_decide_eq, stops] at goesOn
          cases goesOn
      · have goesOn : (!(depth == 0 && [';', ',', '}'].any token.isPunct)) = true := by
          rw [Bool.beq_eq_decide_eq, Bool.not_eq_true']
          exact Bool.eq_false_iff.2 stops
        rw [if_neg stops, Bool.and_eq_true, ← ih]
        constructor
        · intro same
          obtain ⟨type, after⟩ := Prod.mk.inj same
          exact ⟨goesOn, Prod.ext (List.cons.inj type).2 after⟩
        · rintro ⟨-, later⟩
          rw [later]

theorem memberType?_object {opening closing : Token} {body : List Token}
    (opens : opening.isPunct '{' = true) (closes : closing.isPunct '}' = true)
    (balance : BracesBalance body) (rest : List Token) :
    memberType? (opening :: (body ++ closing :: rest)) =
      some (.block opening body closing, rest) := by
  rw [memberType?, if_pos opens, splitClose?_of_balance balance closes]

theorem memberType?_plain {tokens : List Token} (some_token : tokens ≠ [])
    (plain : IsPlainType tokens) (rest : List Token) :
    memberType? (tokens ++ ⟨"", .punct ';'⟩ :: rest) = some (.text tokens, rest) := by
  obtain ⟨noObject, closes⟩ := plain
  cases tokens with
  | nil => exact absurd rfl some_token
  | cons first more =>
      have notOpening : ¬ first.isPunct '{' = true := by
        have : first.isPunct '{' = false := noObject
        rw [this]
        exact Bool.false_ne_true
      have split := (splitType_eq_iff rest).2 closes
      rw [List.cons_append] at split ⊢
      rw [memberType?, if_neg notOpening, split]
      rfl

/-! ## Members -/

theorem members_of_member? {tokens after : List Token} {m : Member}
    (found : member? tokens = some (m, after)) : members tokens = m :: members after := by
  cases tokens with
  | nil => cases found
  | cons token rest =>
      rw [members]
      split
      · next found' =>
          rw [found] at found'
          cases found'
          rfl
      · next none_here =>
          rw [found] at none_here
          cases none_here

theorem members_of_no_member {token : Token} {rest : List Token}
    (none_here : member? (token :: rest) = none) :
    members (token :: rest) = members (skipMember 0 (token :: rest)) := by
  rw [members]
  split
  · next found =>
      rw [none_here] at found
      cases found
  · rfl

/-- A separator that stands alone is no member. -/
theorem members_semicolon (gap : String) (rest : List Token) :
    members (⟨gap, .punct ';'⟩ :: rest) = members rest := by
  have noMember : member? (⟨gap, .punct ';'⟩ :: rest) = none := by
    cases rest <;> rfl
  exact members_of_no_member noMember

theorem member?_of_key {key : Token} {name : String} (named : key.name? = some name)
    {value after : List Token} {type : MemberType}
    (typed : memberType? value = some (type, after)) :
    member? (key :: ⟨"", .punct ':'⟩ :: value) = some (⟨name, type⟩, after) := by
  have key_first : dropReadonly (key :: ⟨"", .punct ':'⟩ :: value) =
      key :: ⟨"", .punct ':'⟩ :: value := by
    rw [dropReadonly, if_neg]
    rw [Bool.and_eq_true]
    rintro ⟨-, colon⟩
    cases colon
  rw [member?, key_first]
  -- A colon is no question mark, so nothing is dropped behind the key.
  dsimp only
  rw [named]
  show (memberType? value).map _ = _
  rw [typed]
  rfl

theorem members_object {key opening closing : Token} {name : String} {body : List Token}
    (named : key.name? = some name) (opens : opening.isPunct '{' = true)
    (closes : closing.isPunct '}' = true) (balance : BracesBalance body) (rest : List Token) :
    members (memberTokens key (opening :: (body ++ [closing])) ++ rest) =
      ⟨name, .block opening body closing⟩ :: members rest := by
  have typed := memberType?_object opens closes balance (⟨"", .punct ';'⟩ :: rest)
  have found := member?_of_key named typed
  -- The semicolon is left over.
  rw [← members_semicolon "" rest, ← members_of_member? found]
  simp [memberTokens]

theorem members_plain {key : Token} {name : String} {type : List Token}
    (named : key.name? = some name) (some_token : type ≠ []) (plain : IsPlainType type)
    (rest : List Token) :
    members (memberTokens key type ++ rest) = ⟨name, .text type⟩ :: members rest := by
  rw [← members_of_member? (member?_of_key named (memberType?_plain some_token plain rest))]
  simp [memberTokens]

/-- A field is read as a field with the text of its type. -/
theorem members_field {key : Token} {name : String} {type : List Token}
    (named : key.name? = some name) (some_token : type ≠ [])
    (shape : IsObjectType type ∨ IsPlainType type) (rest : List Token) :
    ∃ m : Member, members (memberTokens key type ++ rest) = m :: members rest ∧
      m.field? = some (name, Token.sourceText type) := by
  rcases shape with object | plain
  · obtain ⟨opening, body, closing, rfl, opens, closes, balance⟩ :=
      exists_body_of_isObjectType object
    exact ⟨_, members_object named opens closes balance rest, rfl⟩
  · exact ⟨_, members_plain named some_token plain rest, rfl⟩

end ComponentGen.Declaration
