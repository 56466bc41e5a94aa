import ComponentGen.Component.Reading
import ComponentGen.Placeholder.Index
/-!
# Options

The options of a generation run. Every option has a default, so an options file names only what
it changes; it is a JSON object by name, or an array in the order of the fields.
-/

namespace ComponentGen

/-- How the styles of nodes reach the generated markup. -/
inductive StyleMode where
  /-- Class names and a stylesheet for each component. -/
  | classes
  /-- Inline style objects; no stylesheets. -/
  | inline
deriving DecidableEq, Repr

/-- The word for a style mode in options. -/
def StyleMode.text : StyleMode → String
  | .classes => "class"
  | .inline => "inline"

/-- The style mode of a word. -/
def StyleMode.ofText? (s : String) : Option StyleMode :=
  if s = "class" then some .classes else if s = "inline" then some .inline else none

/-- The options of a generation run. -/
structure Options where
  /-- The folder with the component definitions. -/
  inputDir : String := "components"
  /-- The file that declares the interfaces. -/
  typesFile : String := "components/types.d.ts"
  /-- The folder that generated files go to. -/
  outputDir : String := "generated"
  /-- Where the output imports the base components from. -/
  componentsImportPath : String := "../components"
  /-- Root types that always get an interface block. -/
  containerTypes : List String := ["Grid", "Container", "Text", "Image"]
  styleMode : StyleMode := .classes
  /-- Stories are generated. -/
  stories : Bool := true
  /-- Definitions that cannot be read are skipped. -/
  keepGoing : Bool := false
  /-- Two fields behind one placeholder are an error. -/
  strictPlaceholders : Bool := false
deriving DecidableEq, Repr

namespace Options

instance : Inhabited Options := ⟨{}⟩

/-- What happens when two fields claim one placeholder. -/
def collisionPolicy (o : Options) : CollisionPolicy :=
  if o.strictPlaceholders then .strict else .lastWriteWins

/-- A root of this type always gets an interface block. -/
def isContainer (o : Options) (type : String) : Bool :=
  o.containerTypes.contains type

/-- The names of the options, in the order of the positional form. -/
def keys : List String :=
  ["input_dir", "types_file", "output_dir", "components_import_path", "container_types",
    "style_mode", "stories", "keep_going", "strict_placeholders"]

/-- A list of texts. -/
def texts? : Json → Option (List String)
  | .array items => items.mapM Json.toText?
  | _ => none

/-- A style mode, written as its word or as an object from its word to null. -/
def styleMode? : Json → Option StyleMode
  | .string s => StyleMode.ofText? s
  | .object [(s, .null)] => StyleMode.ofText? s
  | _ => none

/-- Options from their fields; a missing field has its default. -/
def ofFields? (fields : Fields Json) : Option Options := do
  let base : Options := {}
  let inputDir ← fields.optional "input_dir" base.inputDir Json.toText?
  let typesFile ← fields.optional "types_file" base.typesFile Json.toText?
  let outputDir ← fields.optional "output_dir" base.outputDir Json.toText?
  let componentsImportPath ←
    fields.optional "components_import_path" base.componentsImportPath Json.toText?
  let containerTypes ← fields.optional "container_types" base.containerTypes texts?
  let styleMode ← fields.optional "style_mode" base.styleMode styleMode?
  let stories ← fields.optional "stories" base.stories Json.toBool?
  let keepGoing ← fields.optional "keep_going" base.keepGoing Json.toBool?
  let strictPlaceholders ←
    fields.optional "strict_placeholders" base.strictPlaceholders Json.toBool?
  return {
    inputDir
    typesFile
    outputDir
    componentsImportPath
    containerTypes
    styleMode
    stories
    keepGoing
    strictPlaceholders }

/-- The options that a JSON value describes. -/
def ofJson? : Json → Option Options
  | .object members => ofFields? members
  | .array items => (Fields.positional? keys items).bind ofFields?
  | _ => none

/-- Read options from JSON text. Unknown fields are not used. -/
def read? (text : String) : Option Options :=
  (Json.read? (Json.Written.restrict (keys.map fun key => (key, id))) text).bind ofJson?

/-- The JSON value that describes the options. -/
def toJson (o : Options) : Json :=
  .object [
    ("input_dir", .string o.inputDir),
    ("types_file", .string o.typesFile),
    ("output_dir", .string o.outputDir),
    ("components_import_path", .string o.componentsImportPath),
    ("container_types", .array (o.containerTypes.map .string)),
    ("style_mode", .string o.styleMode.text),
    ("stories", .bool o.stories),
    ("keep_going", .bool o.keepGoing),
    ("strict_placeholders", .bool o.strictPlaceholders)]

end Options

end ComponentGen
