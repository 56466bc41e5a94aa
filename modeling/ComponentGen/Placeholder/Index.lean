import ComponentGen.Interface
import ComponentGen.Naming
/-!
# Placeholder index

A placeholder is a string in a component tree that stands for a declared field. Each field can be
spelled in several ways, its surface forms. The registrations of an interface list all surface
forms with the fields they stand for; the index is built by registering them one after the other.
When two different fields claim one surface form, the later one keeps it and the collision is
logged, or, under the strict policy, building fails.
-/

namespace ComponentGen

/-- The two halves of a component's input. -/
inductive Category where
  | style
  | data
deriving DecidableEq, Repr

/-- The block of an interface, and of a component's props, that holds a category. -/
def Category.block : Category → String
  | style => "styleMap"
  | data => "data"

/-- The declared field that a surface form stands for. -/
structure Binding where
  category : Category
  key : String
deriving DecidableEq, Repr

/-- A field as it is named in reports. -/
def Binding.text (b : Binding) : String :=
  b.category.block ++ "." ++ b.key

/-- A placeholder in a tree, bound to the field it stands for. -/
structure Reference where
  category : Category
  /-- The name of the declared field. -/
  key : String
  /-- The string that the tree holds. -/
  surface : String
  /-- The string has the form `var(--name)`. -/
  cssVariable : Bool
deriving DecidableEq, Repr

/-- The field that a reference is bound to. -/
def Reference.binding (r : Reference) : Binding := ⟨r.category, r.key⟩

/-- A surface form that was bound to one field when another one claimed it. -/
structure Collision where
  surface : String
  previous : Binding
  current : Binding
deriving DecidableEq, Repr

/-- What happens when two fields claim one surface form. -/
inductive CollisionPolicy where
  /-- The later field keeps the form, and the collision is logged. -/
  | lastWriteWins
  /-- The first collision is an error. -/
  | strict
deriving DecidableEq, Repr

/-- A collision in a component, under the strict policy. -/
structure CollisionError where
  component : String
  collision : Collision
deriving DecidableEq, Repr

/-- The text that reports two fields behind one surface form. -/
def Collision.mapsToBoth (c : Collision) : String :=
  "maps to both " ++ c.previous.text ++ " and " ++ c.current.text

/-- The text of the error. -/
def CollisionError.message (e : CollisionError) : String :=
  "Placeholder '" ++ e.collision.surface ++ "' in " ++ e.component ++ " " ++ e.collision.mapsToBoth

/-- Which surface form stands for which field, with the collisions met while building. -/
structure PlaceholderIndex where
  bindings : OrderedMap Binding := .empty
  collisions : List Collision := []
deriving DecidableEq

/-- The text without the two hyphens in front, if they are there. -/
def withoutDashes? (s : String) : Option String :=
  match s.toList with
  | '-' :: '-' :: rest => some (String.ofList rest)
  | _ => none

/-- The surface forms of a style field: its name and, when that is a CSS variable, the name
without dashes and its camel-case form, if that is different. -/
def styleForms (field : String) : List String :=
  match withoutDashes? field with
  | none => [field]
  | some bare =>
    let camel := Naming.kebabToCamel bare
    if camel = bare then [field, bare] else [field, bare, camel]

/-- The surface forms of a data field: its name, its kebab-case form and, for a numbered name, the
form with a hyphenated number. -/
def dataForms (field : String) : List String :=
  [field, Naming.camelToKebab field] ++ (Naming.numberedToKebab? field).toList

namespace Interface

/-- All surface forms of an interface with the fields they stand for: those of the style fields
first, then those of the data fields, each in the order of declaration. -/
def registrations (i : Interface) : List (String × Binding) :=
  i.styleFieldNames.flatMap (fun field =>
    (styleForms field).map fun surface => (surface, ⟨.style, field⟩)) ++
  i.dataFieldNames.flatMap (fun field =>
    (dataForms field).map fun surface => (surface, ⟨.data, field⟩))

end Interface

namespace PlaceholderIndex

/-- The index that binds nothing. -/
def empty : PlaceholderIndex := {}

/-- Bind a surface form to a field. A form that was bound to another field is a collision. -/
def register (policy : CollisionPolicy) (index : PlaceholderIndex)
    (registration : String × Binding) : Except Collision PlaceholderIndex :=
  let (surface, current) := registration
  let bindings := index.bindings.insert surface current
  match index.bindings.get? surface with
  | none => .ok { index with bindings }
  | some previous =>
    if previous = current then .ok { index with bindings }
    else
      let collision : Collision := ⟨surface, previous, current⟩
      match policy with
      | .strict => .error collision
      | .lastWriteWins => .ok ⟨bindings, index.collisions ++ [collision]⟩

/-- The index of an interface. -/
def build (i : Interface) (policy : CollisionPolicy) : Except CollisionError PlaceholderIndex :=
  match i.registrations.foldlM (register policy) empty with
  | .ok index => .ok index
  | .error collision => .error ⟨i.name, collision⟩

/-- The field that a surface form stands for. -/
def get? (index : PlaceholderIndex) (surface : String) : Option Binding :=
  index.bindings.get? surface

/-- The text is a surface form. -/
def contains (index : PlaceholderIndex) (surface : String) : Bool :=
  (index.get? surface).isSome

/-- The surface forms in the order of their first registration. -/
def surfaces (index : PlaceholderIndex) : List String :=
  index.bindings.keys

/-- The name `--name` in `var(--name)`, where `name` is not empty and holds no closing
parenthesis. -/
def cssVariableName? (s : String) : Option String :=
  match s.toList with
  | 'v' :: 'a' :: 'r' :: '(' :: '-' :: '-' :: rest =>
    match rest.takeWhile (· != ')'), rest.dropWhile (· != ')') with
    | c :: name, [')'] => some (String.ofList ('-' :: '-' :: c :: name))
    | _, _ => none
  | _ => none

/-- Resolve a string: a surface form stands for its field, and so does `var(--name)` when
`--name` is a surface form. -/
def resolve? (index : PlaceholderIndex) (s : String) : Option Reference :=
  match index.get? s with
  | some b => some ⟨b.category, b.key, s, false⟩
  | none =>
    (cssVariableName? s).bind fun name =>
      (index.get? name).map fun b => ⟨b.category, b.key, s, true⟩

end PlaceholderIndex

end ComponentGen
