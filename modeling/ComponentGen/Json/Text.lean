import ComponentGen.Json.Basic
/-!
# JSON texts

Reading a JSON text. A text is cut into lexemes, the lexemes build a tree of the text as it is
written, and the tree gives a value. The written tree comes first because a text may hold parts
that have no value, such as a number beyond all doubles or half of a surrogate pair: these are
refused only where the value is used. A reader says which members it uses by restricting the
written tree; what remains must have a value and must not nest deeper than `maxDepth`.
-/

namespace ComponentGen.Json

/-- A piece of a JSON text. A string or a number that has no value is kept as `none`. -/
inductive Lexeme where
  | openBrace | closeBrace | openBracket | closeBracket | colon | comma
  | null
  | bool (value : Bool)
  | number (value : Option Number)
  | string (value : Option String)

namespace Lexeme

/-- White space between lexemes. -/
def isBlank (c : Char) : Bool :=
  c == ' ' || c == '\t' || c == '\n' || c == '\r'

/-- The value of a hexadecimal digit. -/
def hexValue? (c : Char) : Option Nat :=
  if '0' ≤ c ∧ c ≤ '9' then some (c.toNat - '0'.toNat)
  else if 'a' ≤ c ∧ c ≤ 'f' then some (c.toNat - 'a'.toNat + 10)
  else if 'A' ≤ c ∧ c ≤ 'F' then some (c.toNat - 'A'.toNat + 10)
  else none

/-- The character that a backslash and a letter stand for. -/
def escaped? : Char → Option Char
  | '"' => some '"'
  | '\\' => some '\\'
  | '/' => some '/'
  | 'b' => some '\x08'
  | 'f' => some '\x0c'
  | 'n' => some '\n'
  | 'r' => some '\r'
  | 't' => some '\t'
  | _ => none

/-- The pieces of a string, as characters and as numbered units, up to its closing quote, and
what follows the quote. -/
def scanString : List Char → Option (List (Char ⊕ Nat) × List Char)
  | [] => none
  | '"' :: rest => some ([], rest)
  | '\\' :: 'u' :: a :: b :: c :: d :: rest => do
    let unit := (((← hexValue? a) * 16 + (← hexValue? b)) * 16 + (← hexValue? c)) * 16
      + (← hexValue? d)
    let (pieces, after) ← scanString rest
    return (.inr unit :: pieces, after)
  | '\\' :: e :: rest => do
    let c ← escaped? e
    let (pieces, after) ← scanString rest
    return (.inl c :: pieces, after)
  | c :: rest =>
    if c.toNat < 0x20 || c == '\\' then none
    else do
      let (pieces, after) ← scanString rest
      return (.inl c :: pieces, after)

/-- The first unit of a surrogate pair. -/
def isHighSurrogate (unit : Nat) : Bool :=
  0xd800 ≤ unit && unit < 0xdc00

/-- The second unit of a surrogate pair. -/
def isLowSurrogate (unit : Nat) : Bool :=
  0xdc00 ≤ unit && unit < 0xe000

/-- Join surrogate pairs; half a pair has no value. -/
def joinUnits : List (Char ⊕ Nat) → Option (List Char)
  | [] => some []
  | .inl c :: rest => (joinUnits rest).map (c :: ·)
  | .inr high :: .inr low :: rest =>
    if isHighSurrogate high then
      if isLowSurrogate low then
        let point := 0x10000 + (high - 0xd800) * 0x400 + (low - 0xdc00)
        (joinUnits rest).map (Char.ofNat point :: ·)
      else none
    else if isLowSurrogate high then none
    else (joinUnits (.inr low :: rest)).map (Char.ofNat high :: ·)
  | .inr unit :: rest =>
    if isHighSurrogate unit || isLowSurrogate unit then none
    else (joinUnits rest).map (Char.ofNat unit :: ·)

/-- The values of the digits at the front, and what follows them. -/
def takeDigits (cs : List Char) : List Nat × List Char :=
  ((cs.takeWhile Char.isDigit).map fun c => c.toNat - '0'.toNat, cs.dropWhile Char.isDigit)

/-- At least one digit at the front, and what follows. -/
def takeSomeDigits? (cs : List Char) : Option (List Nat × List Char) :=
  match takeDigits cs with
  | ([], _) => none
  | found => some found

/-- The digits after a point, if there is a point. -/
def scanFraction? : List Char → Option (Option (List Nat) × List Char)
  | '.' :: cs => (takeSomeDigits? cs).map fun (ds, rest) => (some ds, rest)
  | cs => some (none, cs)

/-- The exponent after the letter E, if there is one. -/
def scanExponent? (cs : List Char) : Option (Option Int × List Char) :=
  let signed (negative : Bool) (cs : List Char) : Option (Option Int × List Char) :=
    (takeSomeDigits? cs).map fun (ds, rest) =>
      let size : Int := (ds.foldl (fun acc d => acc * 10 + d) 0 : Nat)
      (some (if negative then -size else size), rest)
  match cs with
  | c :: rest =>
    if c == 'e' || c == 'E' then
      match rest with
      | '+' :: ds => signed false ds
      | '-' :: ds => signed true ds
      | ds => signed false ds
    else some (none, c :: rest)
  | [] => some (none, [])

/-- A number at the front; no superfluous zero may lead. -/
def scanNumber? (cs : List Char) : Option (NumberText × List Char) := do
  let (negative, cs) := match cs with
    | '-' :: rest => (true, rest)
    | cs => (false, cs)
  let (whole, cs) ← takeSomeDigits? cs
  if whole.head? = some 0 ∧ 1 < whole.length then none
  else
    let (fraction, cs) ← scanFraction? cs
    let (exponent, cs) ← scanExponent? cs
    return (⟨negative, whole, fraction, exponent⟩, cs)

/-- One lexeme at the front of a text that starts with no blank, and what follows. -/
def scan? : List Char → Option (Lexeme × List Char)
  | '{' :: rest => some (openBrace, rest)
  | '}' :: rest => some (closeBrace, rest)
  | '[' :: rest => some (openBracket, rest)
  | ']' :: rest => some (closeBracket, rest)
  | ':' :: rest => some (colon, rest)
  | ',' :: rest => some (comma, rest)
  | '"' :: rest => do
    let (pieces, after) ← scanString rest
    return (string ((joinUnits pieces).map String.ofList), after)
  | 'n' :: 'u' :: 'l' :: 'l' :: rest => some (null, rest)
  | 't' :: 'r' :: 'u' :: 'e' :: rest => some (bool true, rest)
  | 'f' :: 'a' :: 'l' :: 's' :: 'e' :: rest => some (bool false, rest)
  | cs => do
    let (text, rest) ← scanNumber? cs
    return (number text.value?, rest)

/-- Cut a text into lexemes, at most `fuel` of them. A text holds no more lexemes than
characters. -/
def scanAll? : (fuel : Nat) → List Char → Option (List Lexeme)
  | fuel, cs =>
    match cs.dropWhile isBlank, fuel with
    | [], _ => some []
    | _, 0 => none
    | cs, fuel + 1 => do
      let (lexeme, rest) ← scan? cs
      return lexeme :: (← scanAll? fuel rest)

end Lexeme

/-- A JSON text as it is written. Strings, numbers and keys without a value are `none`. -/
inductive Written where
  | null
  | bool (value : Bool)
  | number (value : Option Number)
  | string (value : Option String)
  | array (items : List Written)
  | object (members : List (Option String × Written))

namespace Written

instance : Inhabited Written := ⟨null⟩

/-- An array or object whose end has not been read; what it holds so far stands in reverse. For
an object the key of the value to come is kept too. -/
inductive Frame where
  | array (items : List Written)
  | object (members : List (Option String × Written)) (key : Option String)

/-- What may come next in a text. -/
inductive Expected where
  | value
  | valueOrClose
  | keyOrClose
  | key
  | colon
  | commaOrClose
  | nothing (result : Written)

/-- The state of reading: the unfinished arrays and objects, innermost first, and what may come
next. -/
structure State where
  frames : List Frame
  expected : Expected

/-- The state before the first lexeme. -/
def State.start : State := ⟨[], .value⟩

/-- A value has been read: it goes into the innermost unfinished array or object. -/
def State.supply (w : Written) : List Frame → State
  | [] => ⟨[], .nothing w⟩
  | .array items :: frames => ⟨.array (w :: items) :: frames, .commaOrClose⟩
  | .object members key :: frames => ⟨.object ((key, w) :: members) none :: frames, .commaOrClose⟩

/-- Read the first lexeme of a value. -/
def State.openValue (frames : List Frame) : Lexeme → Option State
  | .null => some (supply .null frames)
  | .bool b => some (supply (.bool b) frames)
  | .number n => some (supply (.number n) frames)
  | .string s => some (supply (.string s) frames)
  | .openBracket => some ⟨.array [] :: frames, .valueOrClose⟩
  | .openBrace => some ⟨.object [] none :: frames, .keyOrClose⟩
  | _ => none

/-- Read one lexeme. -/
def State.step (state : State) (lexeme : Lexeme) : Option State :=
  match state.expected, lexeme, state.frames with
  | .valueOrClose, .closeBracket, .array items :: frames
  | .commaOrClose, .closeBracket, .array items :: frames =>
    some (supply (.array items.reverse) frames)
  | .keyOrClose, .closeBrace, .object members _ :: frames
  | .commaOrClose, .closeBrace, .object members _ :: frames =>
    some (supply (.object members.reverse) frames)
  | .commaOrClose, .comma, .array items :: frames => some ⟨.array items :: frames, .value⟩
  | .commaOrClose, .comma, .object members key :: frames =>
    some ⟨.object members key :: frames, .key⟩
  | .keyOrClose, .string s, .object members _ :: frames
  | .key, .string s, .object members _ :: frames => some ⟨.object members s :: frames, .colon⟩
  | .colon, .colon, frames => some ⟨frames, .value⟩
  | .value, lexeme, frames | .valueOrClose, lexeme, frames => openValue frames lexeme
  | _, _, _ => none

/-- The tree of a JSON text, if the text is well formed. -/
def ofText? (text : String) : Option Written := do
  let lexemes ← Lexeme.scanAll? text.length text.toList
  let state ← lexemes.foldlM State.step State.start
  match state.expected with
  | .nothing w => some w
  | _ => none

mutual

/-- The value of a written text. Every part must have a value, and at most `room` arrays and
objects may be open at once. -/
def toJson? (room : Nat) : Written → Option Json
  | null => some .null
  | bool b => some (.bool b)
  | number n => n.map .number
  | string s => s.map .string
  | array items =>
    match room with
    | 0 => none
    | room + 1 => (itemsToJson? room items).map .array
  | object members =>
    match room with
    | 0 => none
    | room + 1 => (membersToJson? room members).map .object

/-- The values of the items of an array. -/
def itemsToJson? (room : Nat) : List Written → Option (List Json)
  | [] => some []
  | item :: rest => do return (← toJson? room item) :: (← itemsToJson? room rest)

/-- The values of the members of an object. -/
def membersToJson? (room : Nat) : List (Option String × Written) → Option (List (String × Json))
  | [] => some []
  | (key, item) :: rest => do
    return (← key, ← toJson? room item) :: (← membersToJson? room rest)

end

/-- Keep the members of an object that a reader knows, each restricted in its turn, and drop the
others. The parts of an array are taken for the known members in their order. Members whose key
has no value are kept, so that they are refused. -/
def restrict (known : List (String × (Written → Written))) : Written → Written
  | object members =>
    object (members.filterMap fun (key, item) =>
      match key with
      | none => some (none, item)
      | some k => (known.lookup k).map fun inner => (some k, inner item))
  | array items =>
    array (items.zipIdx.map fun (item, i) =>
      match known[i]? with
      | some (_, inner) => inner item
      | none => item)
  | w => w

end Written

/-- How many arrays and objects may be open at once in a text. -/
def maxDepth : Nat := 127

/-- The value of the part of a text that a reader uses. -/
def read? (used : Written → Written) (text : String) : Option Json := do
  let written ← Written.ofText? text
  (used written).toJson? maxDepth

/-- The value of a whole text, in canonical form. -/
def readValue? (text : String) : Option Json :=
  (read? id text).map canonical

end ComponentGen.Json
