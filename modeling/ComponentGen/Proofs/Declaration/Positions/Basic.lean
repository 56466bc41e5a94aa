import ComponentGen.Declaration.Extraction
/-!
# Extraction by positions

Interfaces can be extracted from a token list by positions as well: a block is a range of positions,
and the text of a type is a slice of the source between the bytes where its first token begins and
its last token ends. Such an extraction can go wrong in ways that taking tokens from the front of a
list cannot. Here every step that could go wrong is checked, and a check that fails is a fault, so
that it can be proved that none ever does.

There is one loop. It goes on only if its step has moved on, and all scans are instances of it.
-/

namespace ComponentGen.Declaration.Positions

/-- What can go wrong in an extraction by positions. -/
inductive Fault where
  /-- There is no token at the position. -/
  | noToken (position : Nat)
  /-- A position or a depth is taken below zero. -/
  | belowZero
  /-- The bytes do not begin and end at characters, or end before they begin. -/
  | noSlice (first last : Nat)
  /-- A loop does not move on from the position. -/
  | noProgress (position : Nat)
deriving DecidableEq, Repr

/-! ## Checked steps -/

/-- The token at a position. -/
def tokenAt (tokens : List Token) (position : Nat) : Except Fault Token :=
  match tokens[position]? with
  | some token => .ok token
  | none => .error (.noToken position)

/-- All tokens from a position on. -/
def tokensFrom (tokens : List Token) (position : Nat) : Except Fault (List Token) :=
  if position ≤ tokens.length then .ok (tokens.drop position) else .error (.noToken position)

/-- One less. -/
def predecessor : Nat → Except Fault Nat
  | 0 => .error .belowZero
  | n + 1 => .ok n

/-- What one turn of a loop comes to. -/
inductive Turn (σ ρ : Type) where
  /-- The loop is left with a result. -/
  | leave (result : ρ)
  /-- The loop goes on at another position. -/
  | goOn (state : σ) (next : Nat)

/-- Take turns from a position up to `stop`. Each turn has to move on. -/
def loop {σ ρ : Type} (turn : σ → Nat → Except Fault (Turn σ ρ)) (ending : σ → Nat → ρ)
    (stop : Nat) (state : σ) (position : Nat) : Except Fault ρ :=
  if position < stop then
    match turn state position with
    | .error fault => .error fault
    | .ok (.leave result) => .ok result
    | .ok (.goOn state next) =>
      if position < next then loop turn ending stop state next
      else .error (.noProgress position)
  else .ok (ending state position)
termination_by stop - position

/-! ## Text -/

/-- The characters of the first `size` bytes and the others, if a character ends there. -/
def splitBytes? : Nat → List Char → Option (List Char × List Char)
  | 0, cs => some ([], cs)
  | _ + 1, [] => none
  | size + 1, c :: cs =>
    if c.utf8Size ≤ size + 1 then
      (splitBytes? (size + 1 - c.utf8Size) cs).map fun (front, back) => (c :: front, back)
    else none

/-- The text from one byte up to another one. -/
def slice (source : String) (first last : Nat) : Except Fault String :=
  match splitBytes? first source.toList with
  | none => .error (.noSlice first last)
  | some (_, rest) =>
    if first ≤ last then
      match splitBytes? (last - first) rest with
      | none => .error (.noSlice first last)
      | some (text, _) => .ok (.ofList text)
    else .error (.noSlice first last)

/-- The bytes of the token at a position. -/
def spanAt (tokens : List Token) (position : Nat) : Except Fault (Nat × Nat) :=
  match (Token.spans 0 tokens)[position]? with
  | some (_, first, last) => .ok (first, last)
  | none => .error (.noToken position)

/-- The source text from the token at one position up to the token at another one. -/
def textBetween (source : String) (tokens : List Token) (first last : Nat) :
    Except Fault String := do
  let (start, _) ← spanAt tokens first
  let (_, finish) ← spanAt tokens last
  slice source start finish

/-! ## Headers and braces -/

/-- The position of the opening brace of a header, after its name. -/
def openingBrace? (position : Nat) : List Token → Option Nat
  | [] => none
  | token :: rest =>
    if token.isPunct '{' then some position
    else if token.isPunct '}' || token.isPunct ';' then none
    else openingBrace? (position + 1) rest

/-- The header of an interface at a position: its name and the position of its opening brace. The
words of the header are looked up where there may be none. -/
def headerAt (tokens : List Token) (position : Nat) : Except Fault (Option (String × Nat)) :=
  match tokens[position]? with
  | none => .ok none
  | some first =>
    if first.isWord "interface" then
      match tokens[position + 1]? with
      | some ⟨_, .word name⟩ => do
        let rest ← tokensFrom tokens (position + 2)
        return (openingBrace? (position + 2) rest).map fun brace => (name, brace)
      | _ => .ok none
    else .ok none

/-- Leave the search for a header where one stands. -/
def headerTurn (tokens : List Token) (_ : Unit) (i : Nat) :
    Except Fault (Turn Unit (Option Nat)) := do
  let header ← headerAt tokens i
  return if header.isSome then .leave (some i) else .goOn () (i + 1)

/-- The position of the next header, from a position on. -/
def nextHeader (tokens : List Token) (position : Nat) : Except Fault (Option Nat) :=
  loop (headerTurn tokens) (fun _ _ => none) tokens.length () position

/-- Leave a block at the brace that closes the first one. -/
def closingTurn (tokens : List Token) (depth i : Nat) : Except Fault (Turn Nat (Option Nat)) := do
  let token ← tokenAt tokens i
  if token.isPunct '{' then return .goOn (depth + 1) (i + 1)
  else if token.isPunct '}' then
    let depth ← predecessor depth
    return if depth = 0 then .leave (some i) else .goOn depth (i + 1)
  else return .goOn depth (i + 1)

/-- The position of the brace that closes the brace at a position. -/
def closingBrace (tokens : List Token) (opening stop : Nat) : Except Fault (Option Nat) :=
  loop (closingTurn tokens) (fun _ _ => none) stop 0 opening

/-! ## Members -/

/-- The type of a member by positions. -/
inductive TypeRange where
  /-- The text of a plain type. -/
  | text (source : String)
  /-- The range between the braces of an object type. -/
  | block (first last : Nat)
  /-- An object type that is never closed. -/
  | unclosed
deriving DecidableEq

/-- A member by positions, with the position behind it. -/
structure MemberAt where
  name : String
  type : TypeRange
  next : Nat
deriving DecidableEq

/-- The position behind the word `readonly`, if a name follows it. -/
def skipReadonly (tokens : List Token) (position stop : Nat) : Except Fault Nat :=
  if position + 1 < stop then do
    let first ← tokenAt tokens position
    if first.isWord "readonly" then
      let second ← tokenAt tokens (position + 1)
      return if second.name?.isSome then position + 1 else position
    else return position
  else return position

/-- The position behind one of the given punctuation characters. -/
def skipPunct (tokens : List Token) (marks : List Char) (position stop : Nat) :
    Except Fault Nat :=
  if position < stop then do
    let token ← tokenAt tokens position
    return if marks.any token.isPunct then position + 1 else position
  else return position

/-- Leave a plain type at a separator or closing brace outside of all brackets. -/
def typeTurn (tokens : List Token) (depth i : Nat) : Except Fault (Turn Nat Nat) := do
  let token ← tokenAt tokens i
  return if depth = 0 && [';', ',', '}'].any token.isPunct then .leave i
    else .goOn (bracketDepth token depth) (i + 1)

/-- The position behind a plain type. -/
def typeEnd (tokens : List Token) (position stop : Nat) : Except Fault Nat :=
  loop (typeTurn tokens) (fun _ i => i) stop 0 position

/-- The type of a member at a position, and the position behind the member. -/
def typeAt (source : String) (tokens : List Token) (position stop : Nat) :
    Except Fault (Option (TypeRange × Nat)) :=
  if position < stop then do
    let token ← tokenAt tokens position
    if token.isPunct '{' then
      match ← closingBrace tokens position stop with
      | some close => return some (.block (position + 1) close, close + 1)
      | none => return some (.unclosed, stop)
    else
      let last ← typeEnd tokens position stop
      if last = position then return none
      else
        let final ← predecessor last
        let text ← textBetween source tokens position final
        let next ← skipPunct tokens [';', ','] last stop
        return some (.text text, next)
  else return none

/-- The member at a position. -/
def memberAt (source : String) (tokens : List Token) (position stop : Nat) :
    Except Fault (Option MemberAt) := do
  let key ← skipReadonly tokens position stop
  if key < stop then
    let token ← tokenAt tokens key
    match token.name? with
    | none => return none
    | some name =>
      let colon ← skipPunct tokens ['?'] (key + 1) stop
      if colon < stop then
        let mark ← tokenAt tokens colon
        if mark.isPunct ':' then
          let type ← typeAt source tokens (colon + 1) stop
          return type.map fun (type, next) => ⟨name, type, next⟩
        else return none
      else return none
  else return none

/-- Leave what is no member behind a separator outside of all braces, parentheses and brackets. -/
def skipTurn (tokens : List Token) (depth i : Nat) : Except Fault (Turn Nat Nat) := do
  let token ← tokenAt tokens i
  return if ['{', '(', '['].any token.isPunct then .goOn (depth + 1) (i + 1)
    else if ['}', ')', ']'].any token.isPunct then .goOn (depth - 1) (i + 1)
    else if depth = 0 && [';', ','].any token.isPunct then .leave (i + 1)
    else .goOn depth (i + 1)

/-- The position behind what stands at a position and is no member. -/
def skipAt (tokens : List Token) (position stop : Nat) : Except Fault Nat :=
  loop (skipTurn tokens) (fun _ _ => stop) stop 0 position

/-! ## Blocks -/

section Blocks

variable (source : String) (tokens : List Token)

/-- Visit the member at a position, or skip what stands there. -/
def memberTurn {σ : Type} (visit : σ → MemberAt → Except Fault σ) (last : Nat) (state : σ)
    (i : Nat) : Except Fault (Turn σ σ) := do
  match ← memberAt source tokens i last with
  | some m =>
    let state ← visit state m
    return .goOn state m.next
  | none =>
    let next ← skipAt tokens i last
    return .goOn state next

/-- Visit the members of a range one after the other. -/
def forEachMember {σ : Type} (visit : σ → MemberAt → Except Fault σ) (state : σ)
    (first last : Nat) : Except Fault σ :=
  loop (memberTurn source tokens visit last) (fun state _ => state) last state first

/-- Take up a member as a field. -/
def addField (declared : OrderedMap String) (m : MemberAt) : Except Fault (OrderedMap String) :=
  match m.type with
  | .text type => return declared.insert m.name type
  | .block first last => do
    let opening ← predecessor first
    let type ← textBetween source tokens opening last
    return declared.insert m.name type
  | .unclosed => return declared

/-- The fields of a range. -/
def fieldsBetween (first last : Nat) : Except Fault (OrderedMap String) :=
  forEachMember source tokens (addField source tokens) .empty first last

/-- The fields that a member declares for its block. -/
def blockFieldsAt (declared : Option (OrderedMap String)) :
    TypeRange → Except Fault (Option (OrderedMap String))
  | .text _ => return declared
  | .block first last => do
    let declared ← fieldsBetween source tokens first last
    return some declared
  | .unclosed => return none

/-- Take up a member of an interface body. -/
def addMemberAt (i : Interface) (m : MemberAt) : Except Fault Interface :=
  if m.name = "styleMap" then do
    let declared ← blockFieldsAt source tokens i.styleFields m.type
    return { i with styleFields := declared }
  else if m.name = "data" then do
    let declared ← blockFieldsAt source tokens i.dataFields m.type
    return { i with dataFields := declared }
  else if m.name = "children" then return { i with acceptsChildren := true }
  else return i

/-- The interface with the given name and the body in a range. -/
def interfaceBetween (name : String) (first last : Nat) : Except Fault Interface :=
  forEachMember source tokens (addMemberAt source tokens) (.empty name) first last

/-- The end of a body whose brace is at a position, and the position where to go on. -/
def bodyEnd (opening : Nat) : Except Fault (Nat × Nat) := do
  match ← closingBrace tokens opening tokens.length with
  | some close => return (close, close + 1)
  | none =>
    let header ← nextHeader tokens (opening + 1)
    return (header.getD tokens.length, header.getD tokens.length)

/-- Take up the interface whose header stands at a position. -/
def interfaceTurn (table : InterfaceTable) (i : Nat) :
    Except Fault (Turn InterfaceTable InterfaceTable) := do
  match ← headerAt tokens i with
  | none => return .goOn table (i + 1)
  | some (name, opening) =>
    let (last, next) ← bodyEnd tokens opening
    let declared ← interfaceBetween source tokens name (opening + 1) last
    return .goOn (table.insert declared) next

/-- All interfaces of a token list. -/
def interfaces : Except Fault InterfaceTable :=
  loop (interfaceTurn source tokens) (fun table _ => table) tokens.length .empty 0

end Blocks

/-- The interfaces that a text declares, extracted by positions. -/
def extract (source : String) : Except Fault InterfaceTable :=
  interfaces source (tokenize source).tokens

end ComponentGen.Declaration.Positions
