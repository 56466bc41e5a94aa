import ComponentGen.Component.Node
import ComponentGen.Json.Text
/-!
# Component trees as JSON

Reading component trees from JSON and writing them back. An object gives the fields of a node by
name, an array gives them by position. A known field may occur only once; an unknown one is
ignored. Children are read as a list of nodes if possible, otherwise as a single node.

All readings of a value are computed together from the readings of its parts, so every part is
looked at once.
-/

namespace ComponentGen

/-- Fields of a structured value, each with what has been read from it. -/
abbrev Fields (ρ : Type) := List (String × ρ)

namespace Fields

variable {ρ β : Type}

/-- The fields of an array, by position; the array may not be too long. -/
def positional? (keys : List String) (items : List ρ) : Option (Fields ρ) :=
  if items.length ≤ keys.length then some (keys.zip items) else none

/-- Read a field that may be missing; it may not be repeated. -/
def optional (fields : Fields ρ) (key : String) (missing : β) (read : ρ → Option β) : Option β :=
  match fields.filter (·.1 == key) with
  | [] => some missing
  | [(_, found)] => read found
  | _ => none

/-- Read a field that may be neither missing nor repeated. -/
def required (fields : Fields ρ) (key : String) (read : ρ → Option β) : Option β :=
  match fields.filter (·.1 == key) with
  | [(_, found)] => read found
  | _ => none

/-- A field that is left out when there is nothing to write. -/
def ofOption (key : String) : Option ρ → Fields ρ
  | none => []
  | some value => [(key, value)]

end Fields

namespace Json

/-- What a value is read as: the value that it means, and what it describes. -/
structure Reading (α : Type) where
  value : Json
  described : α

/-- How it is found what a value describes, for arrays and objects from the readings of their
parts. -/
structure Reader (α : Type) where
  ofArray : List (Reading α) → α
  ofObject : Fields (Reading α) → α
  ofOther : α

namespace Reading

variable {α : Type}

/-- A map of values. -/
def toMap? (r : Reading α) : Option (OrderedMap Json) := r.value.toMap?

/-- A map of values, or null for none. -/
def toOptionalMap? (r : Reading α) : Option (Option (OrderedMap Json)) :=
  match r.value with
  | .null => some none
  | value => value.toMap?.map some

end Reading

namespace Reader

variable {α : Type} (reader : Reader α)

mutual

/-- The reading of a value. -/
def read : Json → Reading α
  | .array items => ⟨canonical (.array items), reader.ofArray (readItems items)⟩
  | .object members => ⟨canonical (.object members), reader.ofObject (readMembers members)⟩
  | value => ⟨value, reader.ofOther⟩

/-- The readings of the items of an array. -/
def readItems : List Json → List (Reading α)
  | [] => []
  | item :: rest => read item :: readItems rest

/-- The readings of the members of an object. -/
def readMembers : List (String × Json) → Fields (Reading α)
  | [] => []
  | (key, value) :: rest => (key, read value) :: readMembers rest

end

end Reader

end Json

namespace Node

/-- Everything a JSON value can describe in a component tree. -/
structure Described where
  node? : Option Node := none
  children? : Option (Children Node) := none
  overlay? : Option (Overlay Node) := none

/-- What a JSON value is read as in a component tree. -/
abbrev Reading := Json.Reading Described

namespace Reading

/-- The fields of a node, in the order of the positional form. -/
def nodeKeys : List String := ["type", "props", "styleMap", "data", "children", "example"]

/-- The fields of an overlay, in the order of the positional form. -/
def overlayKeys : List String := ["styleMap", "data", "children"]

/-- Children, or null for none. -/
def toChildren? (r : Reading) : Option (Children Node) :=
  match r.value with
  | .null => some .absent
  | _ => r.described.children?

/-- An overlay, or null for none. -/
def toOverlay? (r : Reading) : Option (Overlay Node) :=
  match r.value with
  | .null => some .absent
  | _ => r.described.overlay?

/-- A node from its fields. -/
def nodeOfFields? (fields : Fields Reading) : Option Node := do
  let type ← fields.required "type" (·.value.toText?)
  let props ← fields.optional "props" .empty Json.Reading.toMap?
  let styleMap ← fields.optional "styleMap" .empty Json.Reading.toMap?
  let data ← fields.optional "data" .empty Json.Reading.toMap?
  let children ← fields.optional "children" .absent toChildren?
  let sample ← fields.optional "example" .absent toOverlay?
  return { type, props, styleMap, data, children, sample }

/-- An overlay from its fields. -/
def overlayOfFields? (fields : Fields Reading) : Option (Overlay Node) := do
  let styleMap ← fields.optional "styleMap" none Json.Reading.toOptionalMap?
  let data ← fields.optional "data" none Json.Reading.toOptionalMap?
  let children ← fields.optional "children" .absent toChildren?
  return .present styleMap data children

/-- Children from the items of an array: a list of nodes if all items are nodes, otherwise the
one node that the array itself is. -/
def childrenOfItems? (items : List Reading) (node? : Option Node) : Option (Children Node) :=
  match items.mapM (·.described.node?) with
  | some nodes => some (.list nodes)
  | none => node?.map .single

/-- How component trees are read. -/
def reader : Json.Reader Described where
  ofArray parts :=
    let node? := (Fields.positional? nodeKeys parts).bind nodeOfFields?
    { node?
      children? := childrenOfItems? parts node?
      overlay? := (Fields.positional? overlayKeys parts).bind overlayOfFields? }
  ofObject parts :=
    let node? := nodeOfFields? parts
    { node?
      children? := node?.map .single
      overlay? := overlayOfFields? parts }
  ofOther := {}

end Reading

/-- The component tree that a JSON value describes. -/
def ofJson? (value : Json) : Option Node :=
  (Reading.reader.read value).described.node?

/-- The parts of a written text that describe a component tree: below the children everything is
used, above them unknown fields are not. -/
def usedParts : Json.Written → Json.Written :=
  Json.Written.restrict (Reading.nodeKeys.map fun key =>
    (key, if key = "example" then
      Json.Written.restrict (Reading.overlayKeys.map fun inner => (inner, id))
    else id))

/-- Read a component tree from JSON text. -/
def read? (text : String) : Option Node :=
  (Json.read? usedParts text).bind ofJson?

/-- The value of a map that is left out when it is empty. -/
def mapToJson? (m : OrderedMap Json) : Option Json :=
  if m.isEmpty then none else some (Json.ofMap m)

mutual

/-- The JSON value that describes a component tree; empty maps and missing fields are left
out. -/
def toJson : Node → Json
  | ⟨type, props, styleMap, data, children, sample⟩ =>
    .object (("type", .string type) :: Fields.ofOption "props" (mapToJson? props)
      ++ Fields.ofOption "styleMap" (mapToJson? styleMap)
      ++ Fields.ofOption "data" (mapToJson? data)
      ++ Fields.ofOption "children" (childrenToJson? children)
      ++ Fields.ofOption "example" (overlayToJson? sample))

/-- The value of the children of a node. -/
def childrenToJson? : Children Node → Option Json
  | .absent => none
  | .single node => some (toJson node)
  | .list nodes => some (.array (listToJson nodes))

/-- The values of a list of nodes. -/
def listToJson : List Node → List Json
  | [] => []
  | node :: rest => toJson node :: listToJson rest

/-- The value of the sample overlay of a node. -/
def overlayToJson? : Overlay Node → Option Json
  | .absent => none
  | .present styleMap data children =>
    some (.object (Fields.ofOption "styleMap" (styleMap.map Json.ofMap)
      ++ Fields.ofOption "data" (data.map Json.ofMap)
      ++ Fields.ofOption "children" (childrenToJson? children)))

end

/-- The nodes of a list are written one by one. -/
theorem listToJson_eq_map (nodes : List Node) : listToJson nodes = nodes.map toJson := by
  induction nodes with
  | nil => simp [listToJson]
  | cons node rest ih => simp [listToJson, ih]

end Node

end ComponentGen
