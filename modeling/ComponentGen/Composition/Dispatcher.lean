import ComponentGen.Composition.Record
import ComponentGen.Jsx.Markup
/-!
# Dispatching compositions

A dispatcher knows components by name, ignoring case. It renders a composition: records whose
component is unknown are dropped with everything nested in them, the others take the name under
which their component is registered.
-/

namespace ComponentGen

/-- A rendered record: its component is known and bears its registered name. -/
structure Element where
  component : String
  styleMap : Option (OrderedMap Json) := none
  data : Option (OrderedMap Json) := none
  children : List Element := []

namespace Element

open Jsx (Attribute Markup)

instance : Inhabited Element := ⟨{ component := "" }⟩

/-- An attribute for a map of values, also when the map is empty. -/
def mapAttribute (name : String) (m : Option (OrderedMap Json)) : List Attribute :=
  (m.map fun values => .value name (.literal (Json.ofMap values))).toList

mutual

/-- The markup of an element. -/
def markup : Element → Markup
  | ⟨component, styleMap, data, children⟩ =>
    .element component (mapAttribute "styleMap" styleMap ++ mapAttribute "data" data)
      (listMarkup children)

/-- The markup of several elements. -/
def listMarkup : List Element → List Markup
  | [] => []
  | element :: rest => markup element :: listMarkup rest

end

/-- The element as a record; nested elements are left out when there are none. -/
def toRecord : Element → Record
  | ⟨component, styleMap, data, children⟩ =>
    ⟨component, styleMap, data,
      if children.isEmpty then none else some (toRecords children)⟩
where
  /-- Several elements as records. -/
  toRecords : List Element → List Record
    | [] => []
    | element :: rest => toRecord element :: toRecords rest

end Element

/-- Components by their names in lower case. -/
structure Dispatcher where
  registry : OrderedMap String
deriving DecidableEq

namespace Dispatcher

/-- A dispatcher over the given component names. Of two names that differ in case only, the later
one counts. -/
def ofNames (names : List String) : Dispatcher :=
  ⟨.ofList (names.map fun name => (Text.lowerCase name, name))⟩

/-- The registered name of a component, ignoring case. -/
def resolve? (d : Dispatcher) (component : String) : Option String :=
  d.registry.get? (Text.lowerCase component)

/-- The component is registered, ignoring case. -/
def contains (d : Dispatcher) (component : String) : Bool :=
  (d.resolve? component).isSome

/-- How many components are registered. -/
def size (d : Dispatcher) : Nat :=
  d.registry.size

mutual

/-- Render a record, if its component is known. -/
def renderRecord (d : Dispatcher) : Record → Option Element
  | ⟨component, styleMap, data, children⟩ =>
    (d.resolve? component).map fun name =>
      ⟨name, styleMap, data, renderNested d children⟩

/-- Render the records nested in a record. -/
def renderNested (d : Dispatcher) : Option (List Record) → List Element
  | none => []
  | some records => render d records

/-- Render a composition. Unknown components are dropped. -/
def render (d : Dispatcher) : List Record → List Element
  | [] => []
  | record :: rest => (renderRecord d record).toList ++ render d rest

end

/-- The records of a composition are rendered one by one. -/
theorem render_eq_filterMap (d : Dispatcher) (records : List Record) :
    d.render records = records.filterMap d.renderRecord := by
  induction records with
  | nil => simp [render]
  | cons record rest ih =>
    rw [render, ih, List.filterMap_cons]
    cases d.renderRecord record <;> rfl

/-- Render a composition to markup, one line for each top-level element. -/
def toJsx (d : Dispatcher) (records : List Record) : String :=
  "\n".intercalate ((d.render records).map fun element => element.markup.render .compact)

end Dispatcher

end ComponentGen
