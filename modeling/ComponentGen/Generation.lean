import ComponentGen.Composition.Dispatcher
import ComponentGen.Generated.ComponentModule
import ComponentGen.Generated.Renderer
import ComponentGen.Generated.RendererStory
import ComponentGen.Generated.Story
import ComponentGen.Project
/-!
# Generation

Generating a whole project from component definitions: the modules, stylesheets and stories of all
components, then the common stylesheet, the renderer module and its story. Nothing is written
here. `check` resolves the definitions without generating anything and reports what it finds.
-/

namespace ComponentGen

/-- A component definition: its name, the file it came from, and its tree. -/
structure Definition where
  name : String
  path : String
  node : Node

/-- A definition that came from no file; its path is made up from the name. -/
def Definition.ofNode (name : String) (node : Node) : Definition :=
  ⟨name, name ++ ".json", node⟩

/-- Everything generated for one component. -/
structure GeneratedComponent where
  source : Generated.ComponentSource
  story : Option String
deriving DecidableEq, Repr

/-- What a check found for one component. -/
structure Report where
  name : String
  /-- The component has a declared interface. -/
  declared : Bool
  /-- How many placeholders stand for a declared field. -/
  references : Nat
  collisions : List Collision
deriving DecidableEq, Repr

/-- What a generation run works with: its options and the declared interfaces. -/
structure Generator where
  options : Options
  interfaces : InterfaceTable

namespace Generator

/-- Resolve one component and generate its files. -/
def component (g : Generator) (d : Definition) : Except CollisionError GeneratedComponent := do
  let i := g.interfaces.getOrEmpty d.name
  let index ← PlaceholderIndex.build i g.options.collisionPolicy
  let root := ResolvedNode.ofComponent d.node i index
  let source := Generated.componentSource d.name i root g.options
  let story :=
    if g.options.stories then
      some (Generated.Story.text d.name d.node i index source.stylesheet.isSome g.options)
    else none
  return { source, story }

/-- The files of one component: its module, its stylesheet and its story. -/
def componentFiles (c : GeneratedComponent) : List GeneratedFile :=
  [⟨c.source.name ++ ".tsx", c.source.code⟩] ++
  (c.source.stylesheet.map fun css => ⟨c.source.name ++ ".css", css⟩).toList ++
  (c.story.map fun story => ⟨c.source.name ++ ".stories.tsx", story⟩).toList

/-- The part of the common stylesheet for one component, under a comment with its name. -/
def sheetSection? (c : GeneratedComponent) : Option String :=
  c.source.stylesheet.map fun css => "/* " ++ c.source.name ++ " */\n" ++ css ++ "\n"

/-- The story of the renderer, when stories are generated. -/
def rendererStory (g : Generator) (definitions : List Definition) :
    Except CollisionError (List GeneratedFile) :=
  if g.options.stories then do
    let ctx : Generated.RendererStory.Context :=
      { interfaces := g.interfaces
        generated := definitions.map (·.name)
        policy := g.options.collisionPolicy }
    let records ← Generated.RendererStory.recordsOf ctx
      (definitions.map fun d => (d.name, d.node))
    return [⟨"Renderer.stories.tsx", Generated.RendererStory.text records⟩]
  else
    return []

/-- Generate everything for the given definitions; without definitions there are no files. -/
def generate (g : Generator) (definitions : List Definition) : Except CollisionError Project := do
  let components ← definitions.mapM g.component
  if components.isEmpty then
    return .empty
  else
    let sections := components.filterMap sheetSection?
    let names := components.map (·.source.name)
    let story ← g.rendererStory definitions
    return ⟨components.flatMap componentFiles ++
      [⟨"style.css", "\n".intercalate sections⟩,
        ⟨"Renderer.tsx", Generated.Renderer.text names (!sections.isEmpty)⟩] ++
      story⟩

/-- A dispatcher over the given definitions. -/
def dispatcher (definitions : List Definition) : Dispatcher :=
  .ofNames (definitions.map (·.name))

/-- The report on one definition. Collisions are collected and are no error. -/
def report (g : Generator) (d : Definition) : Except CollisionError Report := do
  let i := g.interfaces.getOrEmpty d.name
  let index ← PlaceholderIndex.build i .lastWriteWins
  let root := ResolvedNode.ofComponent d.node i index
  return {
    name := d.name
    declared := g.interfaces.contains d.name
    references := root.references.length
    collisions := index.collisions }

/-- The reports on all definitions, in order. -/
def check (g : Generator) (definitions : List Definition) : Except CollisionError (List Report) :=
  definitions.mapM g.report

end Generator

end ComponentGen
