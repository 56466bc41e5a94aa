import ComponentGen.Component.Sample
import ComponentGen.Composition.Record
import ComponentGen.Generated.ComponentModule
import ComponentGen.Template.Basic
/-!
# The renderer story

The preview story of the renderer module: a composition with one record for each generated
component, filled with its sample values. A component that takes nested content also gets the
generated components among the children of its merged tree.
-/

namespace ComponentGen.Generated.RendererStory

/-- The text of the story around its records. -/
def template : Template String := [
  .text (String.join [
    "import React from \"react\";\n",
    "import type \x7b Meta, StoryObj \x7d from \"@storybook/react\";\n",
    "import \x7b Renderer \x7d from './Renderer';\n",
    "import type \x7b ComponentData \x7d from './Renderer';\n",
    "\n",
    "const meta: Meta<typeof Renderer> = \x7b\n",
    "  title: \"Generated/Renderer\",\n",
    "  component: Renderer,\n",
    "  tags: [\"autodocs\"],\n",
    "\x7d;\n",
    "export default meta;\n",
    "\n",
    "type Story = StoryObj<typeof Renderer>;\n",
    "\n",
    "export const Default: Story = \x7b\n",
    "  args: \x7b\n",
    "    data: [\n"]),
  .hole "records",
  .text (String.join [
    "\n",
    "    ] as ComponentData[],\n",
    "  \x7d,\n",
    "\x7d;\n"])]

/-! ## Records -/

/-- What the records are made from: the declared interfaces, the names of the generated components
and the policy for collisions. -/
structure Context where
  interfaces : InterfaceTable
  generated : List String
  policy : CollisionPolicy

/-- The samples of one block as a map, if there are any. -/
def sampleMap? (names : List String) (samples : OrderedMap Json) : Option (OrderedMap Json) :=
  let found := OrderedMap.ofList (Samples.declared names samples)
  if found.isEmpty then none else some found

/-- The record of a component without what is nested in it, from its tree and its merged tree. -/
def bareRecord (ctx : Context) (name : String) (base merged : Node) :
    Except CollisionError Record := do
  let i := ctx.interfaces.getOrEmpty name
  let index ← PlaceholderIndex.build i ctx.policy
  let samples := Samples.find base merged index
  return {
    component := name
    styleMap := sampleMap? i.styleFieldNames samples.style
    data := sampleMap? i.dataFieldNames samples.data }

/-- Nest records in a record; no records at all are left out. -/
def nest (record : Record) (nested : List Record) : Record :=
  if nested.isEmpty then record else { record with children := some nested }

/-- The component takes nested content. -/
def acceptsChildren (ctx : Context) (name : String) : Bool :=
  (ctx.interfaces.getOrEmpty name).acceptsChildren

mutual

/-- The records of the generated components in a merged tree, looking through other nodes. -/
def generatedIn (ctx : Context) : Node → Except CollisionError (List Record)
  | ⟨type, props, styleMap, data, children, sample⟩ =>
    if ctx.generated.contains type then do
      let node : Node := ⟨type, props, styleMap, data, children, sample⟩
      let record ← bareRecord ctx type node node
      let nested ← if acceptsChildren ctx type then generatedInChildren ctx children else pure []
      return [nest record nested]
    else generatedInChildren ctx children

/-- The records of the generated components among the given children. -/
def generatedInChildren (ctx : Context) : Children Node → Except CollisionError (List Record)
  | .absent => pure []
  | .single node => generatedIn ctx node
  | .list nodes => generatedInList ctx nodes

/-- The records of the generated components in a list of merged trees. -/
def generatedInList (ctx : Context) : List Node → Except CollisionError (List Record)
  | [] => pure []
  | node :: rest => do
    let first ← generatedIn ctx node
    let others ← generatedInList ctx rest
    return first ++ others

end

/-- A generated component gets a record around what is found below it. -/
theorem generatedIn_eq (ctx : Context) (n : Node) :
    generatedIn ctx n =
      if ctx.generated.contains n.type then do
        let record ← bareRecord ctx n.type n n
        let nested ←
          if acceptsChildren ctx n.type then generatedInChildren ctx n.children else pure []
        return [nest record nested]
      else generatedInChildren ctx n.children := by
  cases n
  rw [generatedIn]

theorem generatedInList_eq_mapM (ctx : Context) (nodes : List Node) :
    generatedInList ctx nodes = do
      let found ← nodes.mapM (generatedIn ctx)
      return found.flatten := by
  induction nodes with
  | nil => rfl
  | cons node rest ih =>
      rw [generatedInList, ih, List.mapM_cons]
      simp only [bind_assoc, pure_bind, List.flatten_cons]

/-- What is found among children is what is found in each of them. -/
theorem generatedInChildren_eq_mapM (ctx : Context) (c : Children Node) :
    generatedInChildren ctx c = do
      let found ← c.toList.mapM (generatedIn ctx)
      return found.flatten := by
  cases c with
  | absent => rfl
  | single node =>
      rw [generatedInChildren, Children.toList, List.mapM_cons, List.mapM_nil]
      simp
  | list nodes => exact generatedInList_eq_mapM ctx nodes

/-- The record of a component: its samples and, if it takes nested content, the generated
components in its merged tree. -/
def recordOf (ctx : Context) (name : String) (n : Node) : Except CollisionError Record := do
  let merged := n.merge
  let record ← bareRecord ctx name n merged
  let nested ←
    if acceptsChildren ctx name then generatedInChildren ctx merged.children else pure []
  return nest record nested

/-- The records of several components. -/
def recordsOf (ctx : Context) (components : List (String × Node)) :
    Except CollisionError (List Record) :=
  components.mapM fun (name, n) => recordOf ctx name n

/-! ## Text -/

/-- The line of one block of a record, if the block is there. -/
def blockLine (pad block : String) (m : Option (OrderedMap Json)) : List String :=
  (m.map fun values => pad ++ "  " ++ block ++ ": " ++ JavaScript.mapText values ++ ",").toList

mutual

/-- The lines of a record, indented by `indent` blanks. -/
def recordLines (indent : Nat) : Record → List String
  | ⟨component, styleMap, data, children⟩ =>
    let pad := String.ofList (List.replicate indent ' ')
    [pad ++ "\x7b", pad ++ "  component: " ++ JavaScript.quote component ++ ","] ++
    blockLine pad "styleMap" styleMap ++ blockLine pad "data" data ++
    nestedLines indent children ++ [pad ++ "\x7d,"]

/-- The lines of the records nested in a record. -/
def nestedLines (indent : Nat) : Option (List Record) → List String
  | none => []
  | some records =>
    let pad := String.ofList (List.replicate indent ' ')
    [pad ++ "  children: ["] ++ listLines (indent + 4) records ++ [pad ++ "  ],"]

/-- The lines of several records. -/
def listLines (indent : Nat) : List Record → List String
  | [] => []
  | record :: rest => recordLines indent record ++ listLines indent rest

end

/-- The source of the renderer story. -/
def text (records : List Record) : String :=
  template.expand fun _ => "\n".intercalate (listLines 6 records)

end ComponentGen.Generated.RendererStory
