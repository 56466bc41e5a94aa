import ComponentGen.Json.Basic
import ComponentGen.Number.Shortest
/-!
# JavaScript literals

JSON values written as JavaScript expressions. Numbers have no exponent, strings stand in double
quotes, and an object key is written bare when it is an identifier. All generated code writes its
values through this module.
-/

namespace ComponentGen.JavaScript

/-- From this size on, an integral double is written with its shortest digits and zeros. -/
def exactIntegerLimit : Nat := Nat.pow 10 21

/-- The text of the absolute value of a double that is not zero: all digits of a moderate
integral number, otherwise the shortest digits that round to it, a tie going up. -/
def magnitudeText (x : Binary64) : String :=
  if x.isIntegral && x.integralPart < exactIntegerLimit then toString x.integralPart
  else
    let (digits, exponent) := x.shortest .up
    positional digits exponent

/-- The text of a number; zero is written without its sign. -/
def numberText : Json.Number → String
  | .integer n => toString n
  | .real x =>
    if x.isZero then "0"
    else if x.negative then "-" ++ magnitudeText x
    else magnitudeText x

/-- A hexadecimal digit, with small letters. -/
def hexDigit (n : Nat) : Char :=
  if n < 10 then Char.ofNat (n + 48) else Char.ofNat (n + 87)

/-- How a character is written between double quotes. -/
def escapeChar (c : Char) : List Char :=
  if c = '"' then ['\\', '"']
  else if c = '\\' then ['\\', '\\']
  else if c = '\x08' then ['\\', 'b']
  else if c = '\x0c' then ['\\', 'f']
  else if c = '\n' then ['\\', 'n']
  else if c = '\r' then ['\\', 'r']
  else if c = '\t' then ['\\', 't']
  else if c.toNat < 0x20 then
    ['\\', 'u', '0', '0', hexDigit (c.toNat / 16), hexDigit (c.toNat % 16)]
  else [c]

/-- A string literal in double quotes. -/
def quote (s : String) : String :=
  String.ofList ('"' :: s.toList.flatMap escapeChar ++ ['"'])

/-- A character that can start an identifier. -/
def isIdentifierStart (c : Char) : Bool :=
  c.isAlpha || c == '_' || c == '$'

/-- A character that can stand inside an identifier. -/
def isIdentifierPart (c : Char) : Bool :=
  c.isAlphanum || c == '_' || c == '$'

/-- The text can be written bare as a property name; only ASCII identifiers are. -/
def isIdentifier (s : String) : Bool :=
  match s.toList with
  | [] => false
  | c :: rest => isIdentifierStart c && rest.all isIdentifierPart

/-- An object key: bare when possible, quoted otherwise. -/
def propertyKey (key : String) : String :=
  if isIdentifier key then key else quote key

/-- Read a property of an object that may be missing. -/
def optionalMember (object key : String) : String :=
  if isIdentifier key then object ++ "?." ++ key else object ++ "?.[" ++ quote key ++ "]"

/-- An array literal of expressions that are already written. -/
def arrayText (items : List String) : String :=
  "[" ++ ", ".intercalate items ++ "]"

/-- One entry of an object literal. -/
def entryText (entry : String × String) : String :=
  propertyKey entry.1 ++ ": " ++ entry.2

/-- An object literal of expressions that are already written. -/
def objectText (entries : List (String × String)) : String :=
  if entries.isEmpty then "\x7b\x7d"
  else "\x7b " ++ ", ".intercalate (entries.map entryText) ++ " \x7d"

mutual

/-- A JSON value as a JavaScript expression. -/
def literal : Json → String
  | .null => "null"
  | .bool b => if b then "true" else "false"
  | .number n => numberText n
  | .string s => quote s
  | .array items => arrayText (literals items)
  | .object members => objectText (literalEntries members)

/-- The items of an array, each as an expression. -/
def literals : List Json → List String
  | [] => []
  | item :: rest => literal item :: literals rest

/-- The members of an object, each value as an expression. -/
def literalEntries : List (String × Json) → List (String × String)
  | [] => []
  | (key, value) :: rest => (key, literal value) :: literalEntries rest

end

/-- The items of an array literal are written one by one. -/
theorem literals_eq_map (items : List Json) : literals items = items.map literal := by
  induction items with
  | nil => rfl
  | cons item rest ih => simp [literals, ih]

/-- The entries of an object literal are written one by one. -/
theorem literalEntries_eq_map (members : List (String × Json)) :
    literalEntries members = members.map fun member => (member.1, literal member.2) := by
  induction members with
  | nil => rfl
  | cons member rest ih => simp [literalEntries, ih]

/-- The object literal of an ordered map. -/
def mapText (m : OrderedMap Json) : String :=
  objectText (m.entries.map fun entry => (entry.1, literal entry.2))

end ComponentGen.JavaScript
