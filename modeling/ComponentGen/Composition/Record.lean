import ComponentGen.Component.Reading
/-!
# Compositions

A composition is a list of records, each of which names a component, its styles and data, and the
records nested in it. This module holds the records and their JSON form.
-/

namespace ComponentGen

/-- One record of a composition. -/
structure Record where
  component : String
  styleMap : Option (OrderedMap Json) := none
  data : Option (OrderedMap Json) := none
  children : Option (List Record) := none

namespace Record

instance : Inhabited Record := ⟨{ component := "" }⟩

/-- A record of a component with nothing else. -/
def ofComponent (component : String) : Record := { component }

/-- Nest one more record at the end. -/
def withChild (r child : Record) : Record :=
  { r with children := some (r.children.getD [] ++ [child]) }

/-- Everything a JSON value can describe in a composition. -/
structure Described where
  record? : Option Record := none
  records? : Option (List Record) := none

/-- What a JSON value is read as in a composition. -/
abbrev Reading := Json.Reading Described

namespace Reading

/-- The fields of a record, in the order of the positional form. -/
def keys : List String := ["component", "styleMap", "data", "children"]

/-- A list of records, or null for none. -/
def toOptionalRecords? (r : Reading) : Option (Option (List Record)) :=
  match r.value with
  | .null => some none
  | _ => r.described.records?.map some

/-- A record from its fields. -/
def recordOfFields? (fields : Fields Reading) : Option Record := do
  let component ← fields.required "component" (·.value.toText?)
  let styleMap ← fields.optional "styleMap" none Json.Reading.toOptionalMap?
  let data ← fields.optional "data" none Json.Reading.toOptionalMap?
  let children ← fields.optional "children" none toOptionalRecords?
  return { component, styleMap, data, children }

/-- How compositions are read. -/
def reader : Json.Reader Described where
  ofArray parts :=
    { record? := (Fields.positional? keys parts).bind recordOfFields?
      records? := parts.mapM (·.described.record?) }
  ofObject parts := { record? := recordOfFields? parts }
  ofOther := {}

end Reading

/-- The record that a JSON value describes. -/
def ofJson? (value : Json) : Option Record :=
  (Reading.reader.read value).described.record?

/-- The composition that a JSON value describes. -/
def listOfJson? (value : Json) : Option (List Record) :=
  (Reading.reader.read value).described.records?

/-- The parts of a written text that describe a record nested at most `depth` deep. -/
def usedParts : (depth : Nat) → Json.Written → Json.Written
  | 0 => id
  | depth + 1 => Json.Written.restrict (Reading.keys.map fun key =>
    (key, if key = "children" then
      fun written =>
        match written with
        | .array items => .array (items.map (usedParts depth))
        | other => other
    else id))

/-- Read a composition from JSON text. -/
def readList? (text : String) : Option (List Record) :=
  let used (written : Json.Written) : Json.Written :=
    match written with
    | .array items => .array (items.map (usedParts Json.maxDepth))
    | other => other
  (Json.read? used text).bind listOfJson?

mutual

/-- The JSON value that describes a record; missing fields are left out. -/
def toJson : Record → Json
  | ⟨component, styleMap, data, children⟩ =>
    .object (("component", .string component) :: Fields.ofOption "styleMap" (styleMap.map Json.ofMap)
      ++ Fields.ofOption "data" (data.map Json.ofMap)
      ++ Fields.ofOption "children" (recordsToJson? children))

/-- The value of the nested records. -/
def recordsToJson? : Option (List Record) → Option Json
  | none => none
  | some records => some (.array (listToJson records))

/-- The values of a list of records. -/
def listToJson : List Record → List Json
  | [] => []
  | record :: rest => toJson record :: listToJson rest

end

/-- The records of a list are written one by one. -/
theorem listToJson_eq_map (records : List Record) : listToJson records = records.map toJson := by
  induction records with
  | nil => simp [listToJson]
  | cons record rest ih => simp [listToJson, ih]

end Record

end ComponentGen
