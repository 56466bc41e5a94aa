import ComponentGen.Declaration.Token
import ComponentGen.Interface
/-!
# Interfaces from declaration text

Reads declarations of the form

    interface Name { styleMap: { "--field": Type; }; data: { field: Type; }; children?: Type; }

out of a token list. Everything else is skipped: between declarations token by token, inside a
body member by member. A body whose brace is never closed ends in front of the next header, and a
block that is never closed declares nothing. Every function here takes tokens from the front of a
list and returns what is left, so no position is ever out of range.
-/

namespace ComponentGen.Declaration

/-- What follows the opening brace of a header, after its name. The tokens before the brace, such
as type parameters, are free but for braces and semicolons. -/
def openBody? : List Token → Option (List Token)
  | [] => none
  | token :: rest =>
    if token.isPunct '{' then some rest
    else if token.isPunct '}' || token.isPunct ';' then none
    else openBody? rest

/-- The header of an interface at the front: its name and what follows the opening brace. -/
def header? : List Token → Option (String × List Token)
  | first :: second :: rest =>
    match first.isWord "interface", second.kind with
    | true, .word name => (openBody? rest).map fun inside => (name, inside)
    | _, _ => none
  | _ => none

/-- Split at the brace that closes a block: the tokens before it, the brace, and the tokens after
it. `depth` braces have been opened inside the block so far. -/
def splitClose? (depth : Nat) : List Token → Option (List Token × Token × List Token)
  | [] => none
  | token :: rest =>
    let inside (depth : Nat) :=
      (splitClose? depth rest).map fun (body, close, after) => (token :: body, close, after)
    if token.isPunct '{' then inside (depth + 1)
    else if token.isPunct '}' then
      match depth with
      | 0 => some ([], token, rest)
      | depth + 1 => inside depth
    else inside depth

/-- Split in front of the next header. -/
def splitAtHeader : List Token → List Token × List Token
  | [] => ([], [])
  | token :: rest =>
    if (header? (token :: rest)).isSome then ([], token :: rest)
    else
      let found := splitAtHeader rest
      (token :: found.1, found.2)

/-! ## Members -/

/-- The type of a member. -/
inductive MemberType where
  /-- The tokens of a plain type. -/
  | text (tokens : List Token)
  /-- An object type: its braces and the tokens between them. -/
  | block (opening : Token) (body : List Token) (closing : Token)
  /-- An object type that is never closed. -/
  | unclosed
deriving DecidableEq

/-- A member of a block, `name: type`. -/
structure Member where
  name : String
  type : MemberType
deriving DecidableEq

/-- Drop the word `readonly` in front of a name. -/
def dropReadonly : List Token → List Token
  | first :: second :: rest =>
    if first.isWord "readonly" && second.name?.isSome then second :: rest
    else first :: second :: rest
  | tokens => tokens

/-- Drop a token that is one of the given punctuation characters. -/
def dropPunct (marks : List Char) : List Token → List Token
  | token :: rest => if marks.any token.isPunct then rest else token :: rest
  | [] => []

/-- How many brackets are open after a token of a type; a closing bracket too many is ignored. -/
def bracketDepth (token : Token) (depth : Nat) : Nat :=
  if ['{', '(', '[', '<'].any token.isPunct then depth + 1
  else if ['}', ')', ']', '>'].any token.isPunct then depth - 1
  else depth

/-- The tokens of a plain type: up to a separator or closing brace outside of all brackets. -/
def splitType (depth : Nat) : List Token → List Token × List Token
  | [] => ([], [])
  | token :: rest =>
    if depth = 0 && [';', ',', '}'].any token.isPunct then ([], token :: rest)
    else
      let found := splitType (bracketDepth token depth) rest
      (token :: found.1, found.2)

/-- The type of a member, and what follows the member. A separator belongs to a plain type, not
to an object type. -/
def memberType? : List Token → Option (MemberType × List Token)
  | [] => none
  | token :: rest =>
    if token.isPunct '{' then
      match splitClose? 0 rest with
      | some (body, close, after) => some (.block token body close, after)
      | none => some (.unclosed, [])
    else
      match splitType 0 (token :: rest) with
      | ([], _) => none
      | (type, after) => some (.text type, dropPunct [';', ','] after)

/-- A member `readonly name?: type` at the front, and what follows it. -/
def member? (tokens : List Token) : Option (Member × List Token) :=
  match dropReadonly tokens with
  | [] => none
  | token :: rest =>
    match token.name?, dropPunct ['?'] rest with
    | some name, colon :: value =>
      if colon.isPunct ':' then
        (memberType? value).map fun (type, after) => (⟨name, type⟩, after)
      else none
    | _, _ => none

/-- Drop whatever stands at the front, up to and including the next separator outside of all
braces, parentheses and brackets. -/
def skipMember (depth : Nat) : List Token → List Token
  | [] => []
  | token :: rest =>
    if ['{', '(', '['].any token.isPunct then skipMember (depth + 1) rest
    else if ['}', ')', ']'].any token.isPunct then skipMember (depth - 1) rest
    else if depth = 0 && [';', ','].any token.isPunct then rest
    else skipMember depth rest

/-! ## Progress -/

/-- What follows a closing brace is shorter than the text before the split. -/
theorem length_splitClose? {depth : Nat} {tokens body after : List Token} {close : Token}
    (found : splitClose? depth tokens = some (body, close, after)) :
    after.length < tokens.length := by
  induction tokens generalizing depth body with
  | nil => simp [splitClose?] at found
  | cons token rest ih =>
    have inner {d : Nat}
        (hit : (splitClose? d rest).map (fun (b, c, a) => (token :: b, c, a)) =
          some (body, close, after)) : after.length < (token :: rest).length := by
      simp only [Option.map_eq_some_iff, Prod.mk.injEq] at hit
      obtain ⟨⟨b, c, a⟩, later, -, rfl, rfl⟩ := hit
      have : a.length < rest.length := ih later
      simp only [List.length_cons]
      omega
    unfold splitClose? at found
    split at found
    · exact inner found
    · split at found
      · split at found
        · simp only [Option.some.injEq, Prod.mk.injEq] at found
          simp [← found.2.2]
        · exact inner found
      · exact inner found

/-- What follows an opening brace is shorter than the text before it. -/
theorem length_openBody? {tokens inside : List Token} (found : openBody? tokens = some inside) :
    inside.length < tokens.length := by
  induction tokens with
  | nil => simp [openBody?] at found
  | cons token rest ih =>
    unfold openBody? at found
    split at found
    · simp only [Option.some.injEq] at found
      simp [found]
    · split at found
      · simp at found
      · have := ih found
        simp only [List.length_cons]
        omega

/-- What follows a header is shorter than the text before it. -/
theorem length_header? {tokens inside : List Token} {name : String}
    (found : header? tokens = some (name, inside)) : inside.length < tokens.length := by
  unfold header? at found
  split at found
  · split at found
    · simp only [Option.map_eq_some_iff, Prod.mk.injEq] at found
      obtain ⟨_, opened, -, rfl⟩ := found
      have := length_openBody? opened
      simp only [List.length_cons]
      omega
    · simp at found
  · simp at found

/-- Nothing is lost when splitting at a header. -/
theorem splitAtHeader_append (tokens : List Token) :
    (splitAtHeader tokens).1 ++ (splitAtHeader tokens).2 = tokens := by
  induction tokens with
  | nil => rfl
  | cons token rest ih =>
    unfold splitAtHeader
    split
    · rfl
    · simp [ih]

/-- What stands from the next header on is no longer than the text. -/
theorem length_splitAtHeader (tokens : List Token) :
    (splitAtHeader tokens).2.length ≤ tokens.length := by
  have whole := congrArg List.length (splitAtHeader_append tokens)
  simp only [List.length_append] at whole
  omega

/-- Nothing is lost when splitting after a type. -/
theorem splitType_append (depth : Nat) (tokens : List Token) :
    (splitType depth tokens).1 ++ (splitType depth tokens).2 = tokens := by
  induction tokens generalizing depth with
  | nil => rfl
  | cons token rest ih =>
    unfold splitType
    split
    · rfl
    · simp [ih]

/-- Dropping a punctuation character makes nothing longer. -/
theorem length_dropPunct (marks : List Char) (tokens : List Token) :
    (dropPunct marks tokens).length ≤ tokens.length := by
  unfold dropPunct
  split
  · split <;> simp
  · simp

/-- Dropping the word `readonly` makes nothing longer. -/
theorem length_dropReadonly (tokens : List Token) :
    (dropReadonly tokens).length ≤ tokens.length := by
  unfold dropReadonly
  split
  · split <;> simp
  · simp

/-- What follows the type of a member is shorter than the text before it. -/
theorem length_memberType? {tokens after : List Token} {type : MemberType}
    (found : memberType? tokens = some (type, after)) : after.length < tokens.length := by
  unfold memberType? at found
  split at found
  · simp at found
  · rename_i token rest
    split at found
    · split at found
      · rename_i closed
        have := length_splitClose? closed
        simp only [Option.some.injEq, Prod.mk.injEq] at found
        simp only [← found.2, List.length_cons]
        omega
      · simp only [Option.some.injEq, Prod.mk.injEq] at found
        simp [← found.2]
    · split at found
      · simp at found
      · rename_i rest' notEmpty divided
        have whole := congrArg List.length (splitType_append 0 (token :: rest))
        simp only [Option.some.injEq, Prod.mk.injEq] at found
        have short := length_dropPunct [';', ','] rest'
        rw [divided] at whole
        rw [← found.2]
        cases type' : (splitType 0 (token :: rest)).1 with
        | nil => simp_all
        | cons first more =>
          simp_all only [List.length_append, List.length_cons]
          omega

/-- What follows a member is shorter than the text before it. -/
theorem length_member? {tokens after : List Token} {m : Member}
    (found : member? tokens = some (m, after)) : after.length < tokens.length := by
  have shorter := length_dropReadonly tokens
  unfold member? at found
  split at found
  · simp at found
  · rename_i token rest start
    rw [start] at shorter
    have mark := length_dropPunct ['?'] rest
    split at found
    · rename_i name colon value _ marked
      split at found
      · simp only [Option.map_eq_some_iff, Prod.mk.injEq] at found
        obtain ⟨⟨_, left⟩, typed, -, rfl⟩ := found
        have : left.length < value.length := length_memberType? typed
        rw [marked] at mark
        simp only [List.length_cons] at shorter mark
        show left.length < tokens.length
        omega
      · simp at found
    · simp at found

/-- Skipping makes a text shorter unless it is empty. -/
theorem length_skipMember (depth : Nat) (token : Token) (rest : List Token) :
    (skipMember depth (token :: rest)).length ≤ rest.length := by
  induction rest generalizing depth token with
  | nil =>
    unfold skipMember
    repeat' split
    all_goals simp [skipMember]
  | cons next rest ih =>
    unfold skipMember
    repeat' split
    all_goals
      first
        | exact Nat.le_refl _
        | exact Nat.le_trans (ih _ _) (by simp)

/-! ## Extraction -/

/-- The members of a block, in order; what is no member is skipped. -/
def members : List Token → List Member
  | [] => []
  | token :: rest =>
    match _found : member? (token :: rest) with
    | some (m, after) => m :: members after
    | none => members (skipMember 0 (token :: rest))
termination_by tokens => tokens.length
decreasing_by
  · exact length_member? _found
  · have := length_skipMember 0 token rest
    simp only [List.length_cons]
    omega

/-- A member as a field: its name and the text of its type. A block that is never closed is no
field. -/
def Member.field? (m : Member) : Option (String × String) :=
  match m.type with
  | .text tokens => some (m.name, Token.sourceText tokens)
  | .block opening body closing =>
    some (m.name, Token.sourceText (opening :: body ++ [closing]))
  | .unclosed => none

/-- The fields of a block. -/
def fields (block : List Token) : OrderedMap String :=
  .ofList ((members block).filterMap Member.field?)

/-- The fields that a member declares for its block: those of an object type, and none at all for
an object type that is never closed. Any other type leaves the block as it was. -/
def MemberType.blockFields (declared : Option (OrderedMap String)) :
    MemberType → Option (OrderedMap String)
  | text _ => declared
  | block _ body _ => some (fields body)
  | unclosed => none

/-- Take up one member of an interface body. -/
def addMember (i : Interface) (m : Member) : Interface :=
  if m.name = "styleMap" then { i with styleFields := m.type.blockFields i.styleFields }
  else if m.name = "data" then { i with dataFields := m.type.blockFields i.dataFields }
  else if m.name = "children" then { i with acceptsChildren := true }
  else i

/-- The interface with the given name and body. -/
def interfaceOf (name : String) (body : List Token) : Interface :=
  (members body).foldl addMember (.empty name)

/-- The names and bodies of all interfaces, in order. A body without a closing brace ends in front
of the next header. -/
def bodies : List Token → List (String × List Token)
  | [] => []
  | token :: rest =>
    match _found : header? (token :: rest) with
    | none => bodies rest
    | some (name, inside) =>
      match _closed : splitClose? 0 inside with
      | some (body, _, after) => (name, body) :: bodies after
      | none => (name, (splitAtHeader inside).1) :: bodies (splitAtHeader inside).2
termination_by tokens => tokens.length
decreasing_by
  · simp
  · have := length_header? _found
    have := length_splitClose? _closed
    omega
  · have := length_header? _found
    have := length_splitAtHeader inside
    omega

/-- The interfaces that a text declares; a later declaration of a name replaces an earlier one. -/
def extract (source : String) : InterfaceTable :=
  .ofList ((bodies (tokenize source).tokens).map fun (name, body) => interfaceOf name body)

end ComponentGen.Declaration
