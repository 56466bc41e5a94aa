import ComponentGen.Template.Value
/-!
# Commands of templates

The commands that a hole of a template may call by name with arguments. Those that choose between
bodies have none to choose from here, so they write nothing; the others give a value.
-/

namespace ComponentGen.Template

/-- What a command does. -/
inductive Command where
  /-- Write nothing. -/
  | silent
  /-- Choose a body by an argument; without a body, write nothing. -/
  | choice
  /-- Enter a value that counts as true; without a body, write nothing. -/
  | scope
  /-- The part of a value at a position or with a name. -/
  | lookup
  /-- How much a value holds. -/
  | size
  /-- Whether two values are the same, or whether they differ. -/
  | equality (same : Bool)
  /-- Whether two integers are in one of some orders. -/
  | comparison (accepted : List Ordering)
  /-- Whether both of two values count as true. -/
  | both
  /-- Whether one of two values counts as true. -/
  | either
  /-- Whether a value does not count as true. -/
  | negation
deriving DecidableEq, Repr

namespace Command

/-- The commands by name. -/
def named : List (String × Command) := [
  ("raw", silent), ("log", silent),
  ("if", choice), ("unless", choice), ("each", choice), ("with", scope),
  ("lookup", lookup), ("len", size),
  ("eq", equality true), ("ne", equality false),
  ("gt", comparison [.gt]), ("gte", comparison [.gt, .eq]),
  ("lt", comparison [.lt]), ("lte", comparison [.lt, .eq]),
  ("and", both), ("or", either), ("not", negation)]

/-- The command of a name. -/
def ofName? (name : String) : Option Command :=
  named.lookup name

/-- The integer fits 64 bits with a sign. -/
def isSigned64 (n : Int) : Bool :=
  -(Nat.pow 2 63 : Int) ≤ n && n < Nat.pow 2 63

/-- The part of a value that another value names: a text a member, a natural number an item. -/
def entry? : Json → Json → Option Json
  | .object members, .string key => (OrderedMap.ofList members).get? key
  | .array items, .number (.integer (.ofNat n)) => items[n]?
  | _, _ => none

/-- The value that a command gives. An argument that leads nowhere is none; superfluous arguments
are not looked at. -/
def run? : Command → List (Option Json) → Option Json
  | silent, _ => some (.string "")
  | choice, _ :: _ => some (.string "")
  | scope, some value :: _ => if isTrue value then some (.string "") else none
  | lookup, some value :: some key :: _ => entry? value key
  | size, some value :: _ => some (.number (.integer (Template.size value)))
  | equality expected, some a :: some b :: _ => some (.bool (same a b == expected))
  | comparison accepted, some (.number (.integer a)) :: some (.number (.integer b)) :: _ =>
    if isSigned64 a && isSigned64 b then some (.bool (accepted.contains (compare a b))) else none
  | both, some a :: some b :: _ => some (.bool (isTrue a && isTrue b))
  | either, some a :: some b :: _ => some (.bool (isTrue a || isTrue b))
  | negation, some value :: _ => some (.bool (!isTrue value))
  | _, _ => none

end Command

end ComponentGen.Template
