import ComponentGen.Proofs.Declaration.Members
import ComponentGen.Proofs.Declaration.Reading
/-!
# Type expressions

Types as they are written in declarations: names, arrays, generic types, unions and function types,
nested to any depth. Where such a type ends is found by counting open brackets, and the count takes
the end of an arrow for a closing bracket. So an arrow takes one bracket off the count, and a comma
is met outside of all brackets as soon as enough arrows stand in front of it. The types for which
this does not happen are described on the tree of the type.
-/

namespace ComponentGen.Declaration

/-- A name of ASCII letters, digits, `_` and `$` that does not start with a digit. -/
structure Identifier where
  text : String
  isIdentifier : JavaScript.isIdentifier text = true
deriving DecidableEq

theorem Identifier.isWord (name : Identifier) : IsWord name.text :=
  isWord_of_isIdentifier name.isIdentifier

/-- A type expression. -/
inductive TypeExpr where
  | name (word : Identifier)
  /-- An array of items of a type. -/
  | array (item : TypeExpr)
  /-- A generic type with its arguments, at least one. -/
  | generic (word : Identifier) (first : TypeExpr) (more : List TypeExpr)
  | union (left right : TypeExpr)
  /-- A function without parameters. -/
  | thunk (result : TypeExpr)
  /-- A function with parameters, at least one. -/
  | function (param : Identifier) (type : TypeExpr) (more : List (Identifier × TypeExpr))
    (result : TypeExpr)

namespace TypeExpr

mutual

/-- The tokens of a type. An arrow is two of them. -/
def kinds : TypeExpr → List TokenKind
  | name word => [.word word.text]
  | array item => item.kinds ++ [.punct '[', .punct ']']
  | generic word first more =>
    .word word.text :: .punct '<' :: (first.kinds ++ (argumentKinds more ++ [.punct '>']))
  | union left right => left.kinds ++ .punct '|' :: right.kinds
  | thunk result => .punct '(' :: .punct ')' :: .punct '=' :: .punct '>' :: result.kinds
  | function param type more result =>
    .punct '(' :: .word param.text :: .punct ':' :: (type.kinds ++ (parameterKinds more ++
      .punct ')' :: .punct '=' :: .punct '>' :: result.kinds))

/-- The tokens of further arguments, each behind a comma. -/
def argumentKinds : List TypeExpr → List TokenKind
  | [] => []
  | type :: rest => .punct ',' :: (type.kinds ++ argumentKinds rest)

/-- The tokens of further parameters, each behind a comma. -/
def parameterKinds : List (Identifier × TypeExpr) → List TokenKind
  | [] => []
  | (param, type) :: rest =>
    .punct ',' :: .word param.text :: .punct ':' :: (type.kinds ++ parameterKinds rest)

end

mutual

/-- How many arrows stand in a type. -/
def arrows : TypeExpr → Nat
  | name _ => 0
  | array item => item.arrows
  | generic _ first more => first.arrows + argumentArrows more
  | union left right => left.arrows + right.arrows
  | thunk result => 1 + result.arrows
  | function _ type more result => type.arrows + parameterArrows more + 1 + result.arrows

/-- How many arrows stand in several arguments. -/
def argumentArrows : List TypeExpr → Nat
  | [] => 0
  | type :: rest => type.arrows + argumentArrows rest

/-- How many arrows stand in the types of several parameters. -/
def parameterArrows : List (Identifier × TypeExpr) → Nat
  | [] => 0
  | (_, type) :: rest => type.arrows + parameterArrows rest

end

mutual

/-- Each comma in the type stands between more brackets than arrows have taken off the count, where
the count is `depth` in front of the type. -/
def fits (depth : Nat) : TypeExpr → Bool
  | name _ => true
  | array item => item.fits depth
  | generic _ first more =>
    first.fits (depth + 1) && argumentsFit (depth + 1 - first.arrows) more
  | union left right => left.fits depth && right.fits (depth - left.arrows)
  | thunk result => result.fits (depth - 1)
  | function _ type more result =>
    type.fits (depth + 1) && parametersFit (depth + 1 - type.arrows) more &&
      result.fits (depth - (type.arrows + parameterArrows more) - 1)

/-- Each comma in front of and within several arguments fits. -/
def argumentsFit (depth : Nat) : List TypeExpr → Bool
  | [] => true
  | type :: rest => 0 < depth && type.fits depth && argumentsFit (depth - type.arrows) rest

/-- Each comma in front of and within several parameters fits. -/
def parametersFit (depth : Nat) : List (Identifier × TypeExpr) → Bool
  | [] => true
  | (_, type) :: rest =>
    0 < depth && type.fits depth && parametersFit (depth - type.arrows) rest

end

end TypeExpr

/-! ## Counting brackets -/

/-- Tokens without gaps. -/
def ofKinds (kinds : List TokenKind) : List Token :=
  kinds.map fun kind => ⟨"", kind⟩

theorem ofKinds_append (first second : List TokenKind) :
    ofKinds (first ++ second) = ofKinds first ++ ofKinds second :=
  List.map_append

theorem ofKinds_cons (kind : TokenKind) (kinds : List TokenKind) :
    ofKinds (kind :: kinds) = ⟨"", kind⟩ :: ofKinds kinds := rfl

/-- Gaps do not count. -/
theorem closesBrackets_ofKinds (depth : Nat) (tokens : List Token) :
    closesBrackets depth (ofKinds (tokens.map (·.kind))) = closesBrackets depth tokens := by
  induction tokens generalizing depth with
  | nil => rfl
  | cons token rest ih =>
      rw [List.map_cons, ofKinds_cons, closesBrackets, closesBrackets, ← ih]
      rfl

section Count

variable (depth : Nat) (gap : String) (rest : List Token)

theorem closesBrackets_word (word : String) :
    closesBrackets depth (⟨gap, .word word⟩ :: rest) = closesBrackets depth rest := by
  rw [closesBrackets, show [';', ',', '}'].any (Token.mk gap (.word word)).isPunct = false from rfl,
    Bool.and_false]
  rfl

/-- Punctuation that separates nothing counts by its effect on the number of open brackets. -/
theorem closesBrackets_punct {c : Char} (effect : Nat → Nat) (noSeparator : c ∉ [';', ',', '}'])
    (counted : bracketDepth ⟨gap, .punct c⟩ depth = effect depth) :
    closesBrackets depth (⟨gap, .punct c⟩ :: rest) = closesBrackets (effect depth) rest := by
  have goesOn : [';', ',', '}'].any (Token.mk gap (.punct c)).isPunct = false := by
    rw [List.any_eq_false]
    intro d member same
    rw [isPunct_iff] at same
    cases same
    exact noSeparator member
  rw [closesBrackets, goesOn, Bool.and_false, ← counted]
  rfl

/-- An arrow takes a bracket off the count. -/
theorem closesBrackets_arrow (kinds : List TokenKind) :
    closesBrackets depth (ofKinds (.punct '=' :: .punct '>' :: kinds) ++ rest) =
      closesBrackets (depth - 1) (ofKinds kinds ++ rest) := by
  rw [ofKinds_cons, ofKinds_cons, List.cons_append, List.cons_append,
    closesBrackets_punct _ _ _ (fun n => n) (by decide) (by rfl),
    closesBrackets_punct _ _ _ (· - 1) (by decide) (by rfl)]

/-- A comma must stand between brackets. -/
theorem closesBrackets_comma :
    closesBrackets depth (⟨gap, .punct ','⟩ :: rest) =
      (decide (0 < depth) && closesBrackets depth rest) := by
  rw [closesBrackets]
  cases depth <;> rfl

end Count

namespace TypeExpr

mutual

/-- A type leaves the count as it was but for its arrows. -/
theorem closesBrackets_kinds (depth : Nat) (rest : List Token) (type : TypeExpr) :
    closesBrackets depth (ofKinds type.kinds ++ rest) =
      (type.fits depth && closesBrackets (depth - type.arrows) rest) := by
  cases type with
  | name word =>
      exact closesBrackets_word depth "" rest word.text
  | array item =>
      rw [kinds, ofKinds_append, List.append_assoc, closesBrackets_kinds depth _ item]
      exact congrArg _ ((closesBrackets_punct _ _ _ (· + 1) (by decide) (by rfl)).trans
        (closesBrackets_punct _ _ _ (· - 1) (by decide) (by rfl)))
  | generic word first more =>
      have count : depth + 1 - first.arrows - argumentArrows more - 1 =
          depth - (first.arrows + argumentArrows more) := by omega
      rw [kinds, ofKinds_cons, ofKinds_cons, ofKinds_append, ofKinds_append, List.cons_append,
        List.cons_append, List.append_assoc, List.append_assoc, closesBrackets_word,
        closesBrackets_punct _ _ _ (· + 1) (by decide) (by rfl), closesBrackets_kinds _ _ first,
        closesBrackets_argumentKinds _ _ more, fits, arrows, Bool.and_assoc, ← count]
      exact congrArg _ (congrArg _ (closesBrackets_punct _ _ _ (· - 1) (by decide) (by rfl)))
  | union left right =>
      rw [kinds, ofKinds_append, List.append_assoc, closesBrackets_kinds _ _ left, ofKinds_cons,
        List.cons_append, closesBrackets_punct _ _ _ (fun n => n) (by decide) (by rfl),
        closesBrackets_kinds _ _ right, fits, arrows, Nat.sub_sub, Bool.and_assoc]
  | thunk result =>
      rw [kinds, ofKinds_cons, ofKinds_cons, List.cons_append, List.cons_append,
        closesBrackets_punct _ _ _ (· + 1) (by decide) (by rfl),
        closesBrackets_punct _ _ _ (· - 1) (by decide) (by rfl),
        Nat.add_sub_cancel, closesBrackets_arrow, closesBrackets_kinds _ _ result, fits, arrows,
        Nat.sub_sub]
  | function param type more result =>
      have count : depth + 1 - type.arrows - parameterArrows more - 1 =
          depth - (type.arrows + parameterArrows more) := by omega
      rw [kinds, ofKinds_cons, ofKinds_cons, ofKinds_cons, ofKinds_append, ofKinds_append,
        List.cons_append, List.cons_append, List.cons_append, List.append_assoc,
        List.append_assoc, closesBrackets_punct _ _ _ (· + 1) (by decide) (by rfl),
        closesBrackets_word,
        closesBrackets_punct _ _ _ (fun n => n) (by decide) (by rfl), closesBrackets_kinds _ _ type,
        closesBrackets_parameterKinds _ _ more, ofKinds_cons, List.cons_append,
        closesBrackets_punct _ _ _ (· - 1) (by decide) (by rfl), closesBrackets_arrow,
        closesBrackets_kinds _ _ result, count, fits, arrows, Nat.sub_sub, Nat.sub_sub,
        Bool.and_assoc, Bool.and_assoc]

theorem closesBrackets_argumentKinds (depth : Nat) (rest : List Token) (types : List TypeExpr) :
    closesBrackets depth (ofKinds (argumentKinds types) ++ rest) =
      (argumentsFit depth types && closesBrackets (depth - argumentArrows types) rest) := by
  cases types with
  | nil => rfl
  | cons type more =>
      rw [argumentKinds, ofKinds_cons, ofKinds_append, List.cons_append, List.append_assoc,
        closesBrackets_comma, closesBrackets_kinds _ _ type,
        closesBrackets_argumentKinds _ _ more, argumentsFit, argumentArrows, Nat.sub_sub,
        Bool.and_assoc, Bool.and_assoc]

theorem closesBrackets_parameterKinds (depth : Nat) (rest : List Token)
    (params : List (Identifier × TypeExpr)) :
    closesBrackets depth (ofKinds (parameterKinds params) ++ rest) =
      (parametersFit depth params && closesBrackets (depth - parameterArrows params) rest) := by
  cases params with
  | nil => rfl
  | cons param more =>
      obtain ⟨word, type⟩ := param
      rw [parameterKinds, ofKinds_cons, ofKinds_cons, ofKinds_cons, ofKinds_append,
        List.cons_append, List.cons_append, List.cons_append, List.append_assoc,
        closesBrackets_comma, closesBrackets_word,
        closesBrackets_punct _ _ _ (fun n => n) (by decide) (by rfl),
        closesBrackets_kinds _ _ type, closesBrackets_parameterKinds _ _ more, parametersFit,
        parameterArrows, Nat.sub_sub, Bool.and_assoc, Bool.and_assoc]

end

theorem kinds_ne_nil (type : TypeExpr) : type.kinds ≠ [] := by
  cases type with
  | array item => exact List.append_ne_nil_of_right_ne_nil _ (List.cons_ne_nil _ _)
  | union left right => exact List.append_ne_nil_of_right_ne_nil _ (List.cons_ne_nil _ _)
  | _ => exact List.cons_ne_nil _ _

end TypeExpr

/-! ## Spelling -/

/-- The punctuation of types. -/
def typeMarks : List Char :=
  ['[', ']', '<', '>', ',', '|', '(', ')', ':', '=']

/-- Words and the punctuation of types, where no two words are neighbours. -/
inductive IsSpelling : List TokenKind → Prop
  | nil : IsSpelling []
  | mark {c : Char} {rest : List TokenKind} (isMark : c ∈ typeMarks) (spelled : IsSpelling rest) :
    IsSpelling (.punct c :: rest)
  | word {name : String} {rest : List TokenKind} (isWord : IsWord name)
    (apart : rest.head?.all (·.name?.isNone) = true) (spelled : IsSpelling rest) :
    IsSpelling (.word name :: rest)

namespace TypeExpr

mutual

/-- In front of a spelling that begins with punctuation, a type is spelled out as well. -/
theorem isSpelling_kinds (type : TypeExpr) {rest : List TokenKind}
    (apart : rest.head?.all (·.name?.isNone) = true) (spelled : IsSpelling rest) :
    IsSpelling (type.kinds ++ rest) := by
  cases type with
  | name word => exact .word word.isWord apart spelled
  | array item =>
      rw [kinds, List.append_assoc]
      exact isSpelling_kinds item rfl (.mark (by decide) (.mark (by decide) spelled))
  | generic word first more =>
      rw [kinds, List.cons_append, List.cons_append, List.append_assoc, List.append_assoc]
      have closed : IsSpelling (.punct '>' :: rest) := .mark (by decide) spelled
      have arguments := isSpelling_argumentKinds more rfl closed
      exact .word word.isWord rfl
        (.mark (by decide) (isSpelling_kinds first arguments.1 arguments.2))
  | union left right =>
      rw [kinds, List.append_assoc]
      exact isSpelling_kinds left rfl (.mark (by decide) (isSpelling_kinds right apart spelled))
  | thunk result =>
      exact .mark (by decide) (.mark (by decide) (.mark (by decide) (.mark (by decide)
        (isSpelling_kinds result apart spelled))))
  | function param type more result =>
      have back : IsSpelling (.punct ')' :: .punct '=' :: .punct '>' :: (result.kinds ++ rest)) :=
        .mark (by decide) (.mark (by decide) (.mark (by decide)
          (isSpelling_kinds result apart spelled)))
      have params := isSpelling_parameterKinds more rfl back
      rw [kinds, List.cons_append, List.cons_append, List.cons_append, List.append_assoc,
        List.append_assoc]
      exact .mark (by decide) (.word param.isWord rfl (.mark (by decide)
        (isSpelling_kinds type params.1 params.2)))

theorem isSpelling_argumentKinds (types : List TypeExpr) {rest : List TokenKind}
    (apart : rest.head?.all (·.name?.isNone) = true) (spelled : IsSpelling rest) :
    (argumentKinds types ++ rest).head?.all (·.name?.isNone) = true ∧
      IsSpelling (argumentKinds types ++ rest) := by
  cases types with
  | nil => exact ⟨apart, spelled⟩
  | cons type more =>
      have later := isSpelling_argumentKinds more apart spelled
      rw [argumentKinds, List.cons_append, List.append_assoc]
      exact ⟨rfl, .mark (by decide) (isSpelling_kinds type later.1 later.2)⟩

theorem isSpelling_parameterKinds (params : List (Identifier × TypeExpr)) {rest : List TokenKind}
    (apart : rest.head?.all (·.name?.isNone) = true) (spelled : IsSpelling rest) :
    (parameterKinds params ++ rest).head?.all (·.name?.isNone) = true ∧
      IsSpelling (parameterKinds params ++ rest) := by
  cases params with
  | nil => exact ⟨apart, spelled⟩
  | cons param more =>
      obtain ⟨word, type⟩ := param
      have later := isSpelling_parameterKinds more apart spelled
      rw [parameterKinds, List.cons_append, List.cons_append, List.cons_append, List.append_assoc]
      exact ⟨rfl, .mark (by decide) (.word word.isWord rfl (.mark (by decide)
        (isSpelling_kinds type later.1 later.2)))⟩

end

end TypeExpr

theorem toList_raw_punct (c : Char) : (TokenKind.punct c).raw.toList = [c] :=
  String.toList_ofList

theorem plain_of_mem_typeMarks {c : Char} (isMark : c ∈ typeMarks) :
    isBlank c = false ∧ isQuote c = false ∧ Text.isWordChar c = false ∧ c ≠ '/' ∧
      c ∉ ['{', '}'] := by
  simp only [typeMarks, List.mem_cons, List.not_mem_nil, or_false] at isMark
  rcases isMark with rfl | rfl | rfl | rfl | rfl | rfl | rfl | rfl | rfl | rfl
  all_goals decide

namespace IsSpelling

/-- Types have no braces. -/
theorem bracesBalance {tokens : List Token} (spelled : IsSpelling (tokens.map (·.kind))) :
    BracesBalance tokens := by
  induction tokens with
  | nil => exact .nil
  | cons token rest ih =>
      obtain ⟨gap, kind⟩ := token
      cases spelled with
      | mark isMark spelled =>
          have noBrace := (plain_of_mem_typeMarks isMark).2.2.2.2
          refine .cons (rise_of_other ?_ ?_) (ih spelled)
          · intro opens
            cases isPunct_iff.1 opens
            exact noBrace (by decide)
          · intro closes
            cases isPunct_iff.1 closes
            exact noBrace (by decide)
      | word isWord apart spelled => exact .cons rfl (ih spelled)

theorem head_ne_brace {tokens : List Token} (spelled : IsSpelling (tokens.map (·.kind))) :
    tokens.head?.any (·.isPunct '{') = false := by
  cases tokens with
  | nil => rfl
  | cons token rest =>
      obtain ⟨gap, kind⟩ := token
      rw [List.head?_cons, Option.any_some, Bool.eq_false_iff]
      intro opens
      cases isPunct_iff.1 opens
      cases spelled with
      | mark isMark spelled => exact (plain_of_mem_typeMarks isMark).2.2.2.2 (by decide)

/-- Words do not run together. -/
theorem breaks_joined {tokens : List Token} (spelled : IsSpelling (tokens.map (·.kind)))
    (apart : (tokens.map (·.kind)).head?.all (·.name?.isNone) = true)
    (blanks : ∀ token ∈ tokens, token.gap.toList.all isBlank = true) :
    Breaks (joined tokens).toList := by
  cases tokens with
  | nil => exact breaks_nil
  | cons token rest =>
      obtain ⟨gap, kind⟩ := token
      have gapBlank := blanks _ List.mem_cons_self
      rw [joined_cons, String.toList_append, String.toList_append, List.append_assoc]
      cases chars : gap.toList with
      | cons c more =>
          rw [chars, List.all_cons, Bool.and_eq_true] at gapBlank
          exact breaks_cons (isWordChar_of_isBlank gapBlank.1)
      | nil =>
          cases spelled with
          | mark isMark spelled =>
              show Breaks ((TokenKind.punct _).raw.toList ++ (joined rest).toList)
              rw [toList_raw_punct]
              exact breaks_cons (plain_of_mem_typeMarks isMark).2.2.1
          | word isWord _ spelled => cases apart

/-- Words and punctuation with blanks between them are read as they are written. -/
theorem reads {tokens : List Token} (spelled : IsSpelling (tokens.map (·.kind)))
    (blanks : ∀ token ∈ tokens, token.gap.toList.all isBlank = true) :
    Reads (joined tokens).toList tokens := by
  induction tokens with
  | nil => exact .nil
  | cons token rest ih =>
      obtain ⟨gap, kind⟩ := token
      have gapBlank := blanks _ List.mem_cons_self
      have restBlank := fun other member => blanks other (List.mem_cons_of_mem _ member)
      have here : Reads (kind.raw.toList ++ (joined rest).toList) (⟨"", kind⟩ :: rest) := by
        cases spelled with
        | mark isMark spelled =>
            obtain ⟨notBlank, notQuote, notWord, notSlash, -⟩ := plain_of_mem_typeMarks isMark
            rw [toList_raw_punct]
            exact .cons_punct notBlank notQuote notWord notSlash (ih spelled restBlank)
        | word isWord apart spelled =>
            exact (Reads.word isWord).append (ih spelled restBlank)
              (spelled.breaks_joined apart restBlank)
      have whole := here.blank gapBlank (List.cons_ne_nil _ _)
      rw [joined_cons, String.toList_append, String.toList_append, List.append_assoc]
      rw [pushGap, String.ofList_toList, String.append_empty] at whole
      exact whole

end IsSpelling

end ComponentGen.Declaration
