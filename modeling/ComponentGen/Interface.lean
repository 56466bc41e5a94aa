import ComponentGen.OrderedMap
/-!
# Component interfaces

The interface of a component declares its style fields, its data fields and whether it takes
nested content. An interface table holds the interfaces of one generation run by name; inserting
a second interface of a name replaces the first in its place.
-/

namespace ComponentGen

/-- The declared inputs of a component. A block of fields that is not declared at all is `none`;
field names are mapped to the text of their types. -/
structure Interface where
  name : String
  styleFields : Option (OrderedMap String) := none
  dataFields : Option (OrderedMap String) := none
  acceptsChildren : Bool := false
deriving DecidableEq

namespace Interface

/-- The interface that declares nothing. -/
def empty (name : String) : Interface := { name }

/-- Declare a style field. -/
def withStyleField (i : Interface) (field type : String) : Interface :=
  { i with styleFields := some ((i.styleFields.getD .empty).insert field type) }

/-- Declare a data field. -/
def withDataField (i : Interface) (field type : String) : Interface :=
  { i with dataFields := some ((i.dataFields.getD .empty).insert field type) }

/-- The declared style fields in order. -/
def styleFieldNames (i : Interface) : List String :=
  (i.styleFields.getD .empty).keys

/-- The declared data fields in order. -/
def dataFieldNames (i : Interface) : List String :=
  (i.dataFields.getD .empty).keys

/-- Some style field is declared. -/
def hasStyleFields (i : Interface) : Bool :=
  !i.styleFieldNames.isEmpty

/-- Some data field is declared. -/
def hasDataFields (i : Interface) : Bool :=
  !i.dataFieldNames.isEmpty

/-- Some field is declared. -/
def hasFields (i : Interface) : Bool :=
  i.hasStyleFields || i.hasDataFields

end Interface

/-- The interfaces of a generation run, each under its own name. -/
structure InterfaceTable where
  interfaces : OrderedMap Interface
  named : ∀ entry ∈ interfaces.entries, entry.1 = entry.2.name

namespace InterfaceTable

/-- Two tables with the same interfaces in the same order are equal. -/
theorem ext {s t : InterfaceTable} (same : s.interfaces = t.interfaces) : s = t := by
  cases s
  cases t
  simpa using same

/-- The table without interfaces. -/
def empty : InterfaceTable := ⟨.empty, by simp⟩

instance : Inhabited InterfaceTable := ⟨empty⟩

/-- Put an interface into the table; an earlier one of the same name is replaced in its place. -/
def insert (table : InterfaceTable) (i : Interface) : InterfaceTable :=
  ⟨table.interfaces.insert i.name i, by
    intro entry member
    rcases Entries.mem_of_mem_put member with rfl | old
    · rfl
    · exact table.named entry old⟩

/-- The table that results from inserting interfaces one after the other. -/
def ofList (interfaces : List Interface) : InterfaceTable :=
  interfaces.foldl insert empty

/-- The interface of a name. -/
def get? (table : InterfaceTable) (name : String) : Option Interface :=
  table.interfaces.get? name

/-- The name is declared. -/
def contains (table : InterfaceTable) (name : String) : Bool :=
  (table.get? name).isSome

/-- The interface of a name; an undeclared name has one that declares nothing. -/
def getOrEmpty (table : InterfaceTable) (name : String) : Interface :=
  (table.get? name).getD (.empty name)

/-- The interfaces in order. -/
def toList (table : InterfaceTable) : List Interface :=
  table.interfaces.values

/-- How many interfaces the table holds. -/
def size (table : InterfaceTable) : Nat :=
  table.interfaces.size

/-- Inserting an interface changes what is found under its name and nothing else. -/
theorem get?_insert (table : InterfaceTable) (i : Interface) (name : String) :
    (table.insert i).get? name = if name = i.name then some i else table.get? name :=
  table.interfaces.get?_insert i.name name i

/-- The interface found under a name bears that name. -/
theorem name_getOrEmpty (table : InterfaceTable) (name : String) :
    (table.getOrEmpty name).name = name := by
  unfold getOrEmpty get?
  cases found : table.interfaces.get? name with
  | none => rfl
  | some i =>
    have member : (name, i) ∈ table.interfaces.entries := Entries.mem_of_lookup found
    exact (table.named _ member).symm

end InterfaceTable

end ComponentGen
