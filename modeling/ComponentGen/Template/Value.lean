import ComponentGen.Json.Basic
import ComponentGen.Number.Shortest
/-!
# Values in templates

What a template does with the data that it is filled in with: the text of a value, the part of it
with a name, whether it counts as true, and when two values are the same.
-/

namespace ComponentGen.Template

/-- How a number is put into a text; a double is told from an integer. -/
def numberText : Json.Number → String
  | .integer n => toString n
  | .real x => x.decimalText

mutual

/-- How a value is put into a text. -/
def valueText : Json → String
  | .null => ""
  | .string s => s
  | .bool b => if b then "true" else "false"
  | .number n => numberText n
  | .array items => "[" ++ ", ".intercalate (valueTexts items) ++ "]"
  | .object _ => "[object]"

/-- How several values are put into a text. -/
def valueTexts : List Json → List String
  | [] => []
  | item :: rest => valueText item :: valueTexts rest

end

/-- The position that a name made of decimal digits stands for. -/
def position? (name : String) : Option Nat :=
  if name.toList.all Char.isDigit then name.toNat? else none

/-- The part of a value with a name: a member of an object or, by its position, an item of an
array. -/
def part? (value : Json) (name : String) : Option Json :=
  match value with
  | .object members => (OrderedMap.ofList members).get? name
  | .array items => (position? name).bind (items[·]?)
  | _ => none

/-- The number counts as true: not zero, and not so small that it has lost precision. -/
def isTrueNumber : Json.Number → Bool
  | .integer n => n != 0
  | .real x => Nat.pow 2 52 ≤ x.significand

/-- The value counts as true. -/
def isTrue : Json → Bool
  | .null => false
  | .bool b => b
  | .number n => isTrueNumber n
  | .string s => s != ""
  | .array items => !items.isEmpty
  | .object members => !members.isEmpty

/-- How much a value holds: items, members, or the bytes of a text. -/
def size : Json → Nat
  | .array items => items.length
  | .object members => members.length
  | .string s => s.utf8ByteSize
  | _ => 0

/-- The numbers are the same: both integers or both doubles, and equal. -/
def sameNumber : Json.Number → Json.Number → Bool
  | .integer a, .integer b => a == b
  | .real a, .real b => a == b || a.isZero && b.isZero
  | _, _ => false

mutual

/-- The values are the same; the order of the members of an object does not matter. -/
def same : Json → Json → Bool
  | .null, .null => true
  | .bool a, .bool b => a == b
  | .number a, .number b => sameNumber a b
  | .string a, .string b => a == b
  | .array a, .array b => sameItems a b
  | .object a, .object b => a.length == b.length && sameMembers a b
  | _, _ => false

/-- The items are the same, one by one. -/
def sameItems : List Json → List Json → Bool
  | [], [] => true
  | a :: as, b :: bs => same a b && sameItems as bs
  | _, _ => false

/-- Each of some members is the same among others. -/
def sameMembers : List (String × Json) → List (String × Json) → Bool
  | [], _ => true
  | (key, value) :: rest, others =>
    (match others.lookup key with
      | some other => same value other
      | none => false) && sameMembers rest others

end

end ComponentGen.Template
