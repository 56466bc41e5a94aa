import ComponentGen.Component.Sample
import ComponentGen.Generated.ComponentModule
import ComponentGen.Template.Basic
/-!
# Stories

The preview story of a component. The sample values of its declared fields become the arguments of
the story. A container that declares no fields shows the children of its merged tree instead.
-/

namespace ComponentGen.Generated.Story

open Jsx (Attribute Markup)

/-- The text of a story around its imports and its body. -/
def template : Template String := [
  .text (String.join [
    "import React from \"react\";\n",
    "import type \x7b Meta, StoryObj \x7d from \"@storybook/react\";\n"]),
  .hole "imports",
  .text (String.join [
    "\n",
    "\n",
    "const meta: Meta<typeof "]),
  .hole "name",
  .text (String.join [
    "> = \x7b\n",
    "  title: \"Generated/"]),
  .hole "name",
  .text (String.join [
    "\",\n",
    "  component: "]),
  .hole "name",
  .text (String.join [
    ",\n",
    "  tags: [\"autodocs\"],\n",
    "\x7d;\n",
    "export default meta;\n",
    "\n",
    "type Story = StoryObj<typeof "]),
  .hole "name",
  .text (String.join [
    ">;\n",
    "\n",
    "export const Default: Story = \x7b\n"]),
  .hole "body",
  .text (String.join [
    "\n",
    "\x7d;\n"])]

/-! ## Plain markup -/

/-- An attribute for a map of values; an empty map is left out. -/
def mapAttribute (name : String) (m : OrderedMap Json) : List Attribute :=
  if m.isEmpty then [] else [.value name (.literal (Json.ofMap m))]

/-- The attributes of a plain node: props, styles and data as they are. -/
def plainAttributes (n : Node) : List Attribute :=
  n.props.entries.map (fun (key, value) => .value key (.literal value)) ++
  mapAttribute "styleMap" n.styleMap ++ mapAttribute "data" n.data

mutual

/-- The markup of a tree in which nothing is resolved. -/
def plainMarkup : Node → Markup
  | ⟨type, props, styleMap, data, children, sample⟩ =>
    .element type (plainAttributes ⟨type, props, styleMap, data, children, sample⟩)
      (plainChildren children)

/-- The markup of the given children. -/
def plainChildren : Children Node → List Markup
  | .absent => []
  | .single node => [plainMarkup node]
  | .list nodes => plainList nodes

/-- The markup of a list of trees. -/
def plainList : List Node → List Markup
  | [] => []
  | node :: rest => plainMarkup node :: plainList rest

end

/-! ## The body -/

/-- The line that gives the samples of one block, if there are any. -/
def blockLine (block : String) (samples : List (String × Json)) : List String :=
  if samples.isEmpty then []
  else
    ["    " ++ block ++ ": " ++ JavaScript.objectText (JavaScript.literalEntries samples) ++ ","]

/-- The arguments of a story: the sample of every declared field that has one, in the order of
declaration. None when there are no samples at all. -/
def arguments? (i : Interface) (samples : Samples) : Option (List String) :=
  if samples.isEmpty then none
  else
    some (["  args: \x7b"] ++
      blockLine "styleMap" (Samples.declared i.styleFieldNames samples.style) ++
      blockLine "data" (Samples.declared i.dataFieldNames samples.data) ++
      ["  \x7d,"])

/-- The body of a story that shows the children of a merged tree. -/
def renderBody (name : String) (merged : Node) : List String :=
  ["  render: () => (", "    <" ++ name ++ ">"] ++
  merged.childNodes.map (fun child => "      " ++ (plainMarkup child).render .compact) ++
  ["    </" ++ name ++ ">", "  ),"]

/-- What the body of a story consists of. -/
inductive Body where
  /-- Sample values as arguments. -/
  | arguments (lines : List String)
  /-- The children of the merged tree. -/
  | children
  /-- No arguments. -/
  | empty
deriving DecidableEq, Repr

/-- Choose the body of a story. -/
def chooseBody (i : Interface) (samples : Samples) (merged : Node) (options : Options) : Body :=
  match arguments? i samples with
  | some lines => .arguments lines
  | none =>
    if !i.hasFields && options.isContainer merged.type && !merged.childNodes.isEmpty then .children
    else .empty

/-- The lines of a body. -/
def Body.lines (name : String) (merged : Node) : Body → List String
  | arguments lines => lines
  | children => renderBody name merged
  | empty => ["  args: \x7b\x7d,"]

/-- The imports of a story: the component, the types in the tree if its children are shown, and the
stylesheet. -/
def imports (name : String) (merged : Node) (body : Body) (hasStylesheet : Bool)
    (options : Options) : List Import :=
  [.sibling name] ++
  (match body with
    | .children => (sortedDistinct merged.types).map (.inFolder options.componentsImportPath)
    | _ => []) ++
  (if hasStylesheet then [.stylesheet ("./" ++ name ++ ".css")] else [])

/-- The value of each variable of the template. -/
def values (name : String) (imports : List Import) (body : List String) (hole : String) : String :=
  if hole = "name" then name
  else if hole = "imports" then "\n".intercalate (importLines imports)
  else "\n".intercalate body

/-- The source of the story of a component. -/
def text (name : String) (n : Node) (i : Interface) (index : PlaceholderIndex)
    (hasStylesheet : Bool) (options : Options) : String :=
  let merged := n.merge
  let body := chooseBody i (Samples.find n merged index) merged options
  template.expand
    (values name (imports name merged body hasStylesheet options) (body.lines name merged))

end ComponentGen.Generated.Story
