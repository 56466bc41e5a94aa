import ComponentGen.Proofs.Generated.ClassMarkup
import ComponentGen.Proofs.Generated.InsertedText
import ComponentGen.Proofs.Generation.Imports
import Mathlib.Data.List.DropRight
/-!
# Inline mode

In inline mode the styles of a node are printed as a style object. No component has a class table,
so none has a stylesheet, the common stylesheet is empty, and no module imports one. An element
carries a class name only where its node has a prop of that name, which is printed like any other
prop; what a module holds besides the markup of nodes has no class names.
-/

namespace ComponentGen

open Jsx (Attribute Markup)

/-! ## Class names -/

namespace Jsx.Markup

/-- The attributes of an element. -/
def attributes : Markup → List Attribute
  | text _ | insert _ => []
  | element _ attributes _ => attributes

/-- Whatever class name an element carries is one of the given attributes. -/
def ClassNamesAmong (given : List Attribute) (m : Markup) : Prop :=
  ∀ a ∈ m.attributes, a.name = "className" → a ∈ given

end Jsx.Markup

namespace Generated

theorem classNamesAmong_markup {classOf : List Nat → Option String} {path : List Nat}
    (unnamed : classOf path = none) (mode : StyleMode) (n : ResolvedNode) :
    (markup mode classOf path n).ClassNamesAmong (propAttributes n) := by
  intro a member isClassName
  rw [markup_eq, unnamed, Markup.attributes, attributes, List.mem_append, List.mem_append,
    List.mem_append] at member
  rcases member with ((inProps | inStyle) | inClass) | inData
  · exact inProps
  · split at inStyle
    · cases inStyle
    · obtain rfl := List.mem_singleton.1 inStyle
      have other : "style" ≠ "className" := by decide
      exact absurd isClassName other
  · cases inClass
  · split at inData
    · cases inData
    · obtain rfl := List.mem_singleton.1 inData
      have other : "data" ≠ "className" := by decide
      exact absurd isClassName other

/-- Element by element, the markup of a component in inline mode carries no other class names than
the props of its nodes give. -/
theorem classNames_rootMarkup_inline (name : String) (root : ResolvedNode) :
    List.Forall₂ (fun element n => element.ClassNamesAmong (propAttributes n))
      (rootMarkup name root .inline).elements root.preorder := by
  rw [rootMarkup, elements_markup, ResolvedNode.preorder, List.forall₂_map_left_iff,
    List.forall₂_map_right_iff, List.forall₂_same]
  exact fun place _ => classNamesAmong_markup rfl .inline place.2

namespace Story

theorem plainList_eq_map (nodes : List Node) : plainList nodes = nodes.map plainMarkup := by
  induction nodes with
  | nil => rfl
  | cons node rest ih => rw [plainList, ih, List.map_cons]

theorem plainChildren_eq_map (c : Children Node) :
    plainChildren c = c.toList.map plainMarkup := by
  cases c with
  | absent => rfl
  | single node => rfl
  | list nodes => exact plainList_eq_map nodes

theorem plainMarkup_eq (n : Node) :
    plainMarkup n =
      .element n.type (plainAttributes n) (n.childNodes.map plainMarkup) := by
  cases n
  rw [plainMarkup, plainChildren_eq_map]
  rfl

/-- The elements in the markup of a tree that is not resolved are those of its nodes, in order. -/
theorem elements_plainMarkup (n : Node) :
    (plainMarkup n).elements = n.preorder.map plainMarkup := by
  induction n using Node.nested with
  | node n ih =>
      rw [plainMarkup_eq, Markup.elements, Markup.contentElements_eq_flatMap, List.flatMap_map,
        Node.preorder_eq, List.map_cons, List.map_flatMap, ← plainMarkup_eq]
      exact congrArg _ (List.flatMap_congr ih)

/-- The attributes that the props of a node are printed as where nothing is resolved. -/
def plainPropAttributes (n : Node) : List Attribute :=
  n.props.entries.map fun (key, value) => .value key (.literal value)

theorem classNamesAmong_plainMarkup (n : Node) :
    (plainMarkup n).ClassNamesAmong (plainPropAttributes n) := by
  have notMap {block : String} {m : OrderedMap Json} {a : Attribute} (other : block ≠ "className")
      (member : a ∈ mapAttribute block m) : a.name ≠ "className" := by
    unfold mapAttribute at member
    split at member
    · cases member
    · obtain rfl := List.mem_singleton.1 member
      exact other
  intro a member isClassName
  rw [plainMarkup_eq, Markup.attributes, plainAttributes, List.mem_append, List.mem_append]
    at member
  rcases member with (inProps | inStyle) | inData
  · exact inProps
  · exact absurd isClassName (notMap (by decide) inStyle)
  · exact absurd isClassName (notMap (by decide) inData)

/-- Element by element, what a story shows carries no other class names than the props of the nodes
give. -/
theorem classNames_plainMarkup (n : Node) :
    List.Forall₂ (fun element node => element.ClassNamesAmong (plainPropAttributes node))
      (plainMarkup n).elements n.preorder := by
  rw [elements_plainMarkup, List.forall₂_map_left_iff, List.forall₂_same]
  exact fun node _ => classNamesAmong_plainMarkup node

end Story

end Generated

/-! ## Import lines -/

namespace Generated

/-- The line names a file with the ending of a stylesheet: so it ends but for the closing quote and
the semicolon. -/
def NamesSheet (line : String) : Prop :=
  ".css".toList <:+ line.toList.rdrop 2

instance (line : String) : Decidable (NamesSheet line) :=
  inferInstanceAs (Decidable (_ <:+ _))

theorem suffix_of_suffix_append_cons {α : Type} {word front back : List α} {a : α}
    (isSuffix : word <:+ front ++ a :: back) (absent : a ∉ word) : word <:+ back := by
  have other : a :: back <:+ front ++ a :: back := List.suffix_append _ _
  rcases List.suffix_or_suffix_of_suffix isSuffix other with within | around
  · rcases List.suffix_cons_iff.1 within with rfl | inBack
    · exact absurd List.mem_cons_self absent
    · exact inBack
  · exact absurd (around.subset List.mem_cons_self) absent

/-- What is imported from a folder is called like its file, so the file is called like a stylesheet
only if what is imported is. -/
theorem css_of_namesSheet_inFolder {folder name : String}
    (namesSheet : NamesSheet (Import.inFolder folder name).line) :
    ".css".toList <:+ name.toList := by
  have split : (Import.inFolder folder name).line.toList =
      (("import \x7b " ++ name ++ " \x7d from '" ++ folder).toList ++ '/' :: name.toList) ++
        "';".toList := by
    simp [Import.inFolder, Import.line]
  rw [NamesSheet, split] at namesSheet
  have closing : "';".toList.length = 2 := rfl
  rw [← closing, List.rdrop_append_length] at namesSheet
  exact suffix_of_suffix_append_cons namesSheet (by decide)

/-- An import line that names a file called like a stylesheet is that of a stylesheet, or what it
imports is called so itself. -/
theorem Target.css_of_namesSheet {folder : String} {target : Target}
    (namesSheet : NamesSheet (target.line folder)) :
    (∃ type : String, target = .base type ∧ ".css".toList <:+ type.toList) ∨
      (∃ name : String, target = .sibling name ∧ ".css".toList <:+ name.toList) ∨
      ∃ stem, target = .stylesheet stem := by
  cases target with
  | react | storyReact | storyTypes | rendererData =>
      rw [line] at namesSheet
      exact absurd namesSheet (by decide)
  | base type => exact .inl ⟨type, rfl, css_of_namesSheet_inFolder namesSheet⟩
  | sibling name =>
      have here : (sibling name).line folder = (Import.inFolder "." name).line := rfl
      rw [here] at namesSheet
      exact .inr (.inl ⟨name, rfl, css_of_namesSheet_inFolder namesSheet⟩)
  | stylesheet stem => exact .inr (.inr ⟨stem, rfl⟩)

end Generated

/-! ## Stylesheets -/

namespace Generator

open Generated
open Text (Avoids Between)

/-! ### Text of a module's own -/

/-- What is inserted in the text of a module, in order: names, paths, types, values, and the markup of
nodes. -/
def pieces (g : Generator) (definitions : List Definition) : GeneratedModule → List String
  | .component d => modulePieces d.name (g.interfaces.getOrEmpty d.name) (g.root d) g.options
      (g.hasStylesheet d)
  | .story d => Story.pieces d.name
      (Story.imports d.name d.node.merge (g.storyBody d) (g.hasStylesheet d) g.options)
      (Story.bodyPieces d.name (g.interfaces.getOrEmpty d.name)
        (Samples.find d.node d.node.merge (g.interfaces.getOrEmpty d.name).index) d.node.merge
        (g.storyBody d))
  | .renderer => Renderer.pieces (definitions.map (·.name)) (definitions.any g.hasStylesheet)
  | .rendererStory records => RendererStory.listPieces records

/-- Whatever the options, the text of a module around its pieces has no class names. -/
theorem between_file (g : Generator) (definitions : List Definition) (m : GeneratedModule) :
    Between (Avoids "className") (g.pieces definitions m) (g.file definitions m).content := by
  have inserted : Inserts (g.pieces definitions m) (g.file definitions m).content := by
    cases m with
    | component d => exact inserts_moduleText ..
    | story d => exact Story.inserts_expand _ _ (Story.inserts_body ..)
    | renderer => exact Renderer.inserts_text ..
    | rendererStory records => exact RendererStory.inserts_text records
  exact inserted.between avoids_empty Avoids.append

/-! ### Modules in inline mode -/

/-- The types of the nodes that the module of a component and its story show. -/
def nodeTypes (g : Generator) (d : Definition) : List String :=
  (g.root d).preorder.map (·.type) ++ d.node.merge.types

/-- What is imported from the folder of base components is the type of a node. -/
theorem mem_nodeTypes_of_base {g : Generator} {definitions : List Definition} {m : GeneratedModule}
    (isOf : m.IsOf definitions) {type : String} (isTarget : .base type ∈ g.targets definitions m) :
    ∃ d ∈ definitions, type ∈ g.nodeTypes d := by
  cases m with
  | component d =>
      have inTree : type ∈ instantiatedTypes (g.root d) := by simpa [targets] using isTarget
      exact ⟨d, isOf, List.mem_append_left _ (List.mem_filter.1 inTree).1⟩
  | story d =>
      have inMerged : type ∈ d.node.merge.types := by
        cases body : g.storyBody d with
        | children => simpa [targets, body] using isTarget
        | arguments lines => simp [targets, body] at isTarget
        | empty => simp [targets, body] at isTarget
      exact ⟨d, isOf, List.mem_append_right _ inMerged⟩
  | renderer => simp [targets] at isTarget
  | rendererStory records => simp [targets] at isTarget

/-- What is imported from a module beside the importing one is a component or the renderer. -/
theorem mem_names_of_sibling {g : Generator} {definitions : List Definition} {m : GeneratedModule}
    (isOf : m.IsOf definitions) {name : String}
    (isTarget : .sibling name ∈ g.targets definitions m) :
    name = "Renderer" ∨ name ∈ definitions.map (·.name) := by
  cases m with
  | component d => simp [targets] at isTarget
  | story d =>
      have own : name = d.name := by
        cases body : g.storyBody d <;> simpa [targets, body] using isTarget
      exact .inr (own ▸ List.mem_map_of_mem isOf)
  | renderer => exact .inr (by simpa [targets] using isTarget)
  | rendererStory records => exact .inl (by simpa [targets] using isTarget)

/-- The import lines open the text of the module. None is that of a stylesheet, and one that names a
file called like a stylesheet is the named import of a node type or a generated component that is
called so. Apart from what is inserted in it, the text has no class names. -/
structure InlineModule (g : Generator) (definitions : List Definition) (m : GeneratedModule) :
    Prop where
  opens : OpensWith (g.file definitions m).content (g.importLinesOf definitions m)
    (g.inserted definitions m)
  noSheet : ∀ line ∈ g.importLinesOf definitions m, ∀ path, line ≠ (Import.stylesheet path).line
  named : ∀ line ∈ g.importLinesOf definitions m, NamesSheet line →
    ∃ name : String, ".css".toList <:+ name.toList ∧
      ((∃ d ∈ definitions, name ∈ g.nodeTypes d) ∧
          line = (Import.inFolder g.options.componentsImportPath name).line ∨
        name ∈ definitions.map (·.name) ∧ line = (Import.sibling name).line)
  ownText : Between (Avoids "className") (g.pieces definitions m) (g.file definitions m).content

variable {g : Generator} {definitions : List Definition} {project : Project}
  (inline : g.options.styleMode = .inline)

include inline

/-- No component has a stylesheet. -/
theorem stylesheet_inline (d : Definition) : (g.emitted d).source.stylesheet = none := by
  rw [emitted, componentSource, stylesheet?, inline]
  rfl

theorem hasStylesheet_inline (d : Definition) : g.hasStylesheet d = false := by
  rw [hasStylesheet, stylesheet_inline inline]
  rfl

/-- No module has a stylesheet among its imports. -/
theorem stylesheet_not_mem_targets (m : GeneratedModule) (stem : String) :
    .stylesheet stem ∉ g.targets definitions m := by
  have none_has : definitions.any g.hasStylesheet = false :=
    List.any_eq_false.2 fun d _ => Bool.eq_false_iff.1 (hasStylesheet_inline inline d)
  cases m with
  | component d => simp [targets, hasStylesheet_inline inline d]
  | story d => cases body : g.storyBody d <;> simp [targets, body, hasStylesheet_inline inline d]
  | renderer => simp [targets, none_has]
  | rendererStory records => simp [targets]

theorem inlineModule {m : GeneratedModule} (isOf : m.IsOf definitions) :
    g.InlineModule definitions m where
  opens := g.opensWith_file m
  noSheet := by
    rintro _ isLine path rfl
    obtain ⟨target, isTarget, same⟩ := List.mem_map.1 isLine
    obtain ⟨stem, rfl⟩ := Target.exists_of_line_eq_stylesheet same
    exact stylesheet_not_mem_targets inline m stem isTarget
  named := by
    intro line isLine namesSheet
    obtain ⟨target, isTarget, rfl⟩ := List.mem_map.1 isLine
    rcases Target.css_of_namesSheet namesSheet with ⟨type, rfl, css⟩ | ⟨name, rfl, css⟩ | ⟨stem, rfl⟩
    · exact ⟨type, css, .inl ⟨mem_nodeTypes_of_base isOf isTarget, rfl⟩⟩
    · rcases mem_names_of_sibling isOf isTarget with rfl | isComponent
      · exact absurd css (by decide)
      · exact ⟨name, css, .inr ⟨isComponent, rfl⟩⟩
    · exact absurd isTarget (stylesheet_not_mem_targets inline m stem)
  ownText := g.between_file definitions m

/-- A file is the common stylesheet, which is empty, or a module. -/
theorem mem_files_inline (generated : g.generate definitions = .ok project)
    {file : GeneratedFile} (member : file ∈ project.files) :
    file = ⟨"style.css", ""⟩ ∨
      ∃ m : GeneratedModule, m.IsOf definitions ∧ g.file definitions m = file := by
  have nonempty : definitions ≠ [] := by
    rintro rfl
    obtain ⟨_, -, rfl⟩ := exists_eq_assembled generated
    cases member
  rcases mem_files_cases nonempty generated member with ⟨d, css, isSheet, -⟩ | isCommon | isModule
  · rw [stylesheet_inline inline] at isSheet
    cases isSheet
  · have noSections : (definitions.map g.emitted).filterMap sheetSection? = [] := by
      rw [List.filterMap_map]
      refine List.filterMap_eq_nil_iff.2 fun d _ => ?_
      rw [Function.comp_apply, sheetSection?, stylesheet_inline inline]
      rfl
    rw [noSections] at isCommon
    exact .inl isCommon
  · exact .inr isModule

omit inline in
/-- No module is called like a stylesheet. -/
theorem not_css_file (m : GeneratedModule) :
    ¬ ".css".toList <:+ (g.file definitions m).path.toList := by
  have ending : ∃ stem : String, (g.file definitions m).path = stem ++ ".tsx" := by
    cases m with
    | component d => exact ⟨d.name, rfl⟩
    | story d => exact ⟨d.name ++ ".stories", storyPath_eq d.name⟩
    | renderer => exact ⟨"Renderer", rfl⟩
    | rendererStory records => exact ⟨"Renderer.stories", rfl⟩
  obtain ⟨stem, path⟩ := ending
  rintro ⟨front, same⟩
  have both : String.ofList front ++ ".css" = stem ++ ".tsx" := by
    rw [← String.toList_inj, String.toList_append, String.toList_ofList, ← path]
    exact same
  exact module_ne_stylesheet stem (String.ofList front) both.symm

omit inline

/-- A generator in inline mode without stories, where no interface is declared. -/
def inlineGenerator : Generator where
  options := { styleMode := .inline, stories := false }
  interfaces := .empty

/-- A text with a style and with a class name of its own. -/
def namedHero : Definition :=
  .ofNode "Hero" {
    type := "Text"
    props := .ofList [("className", .string "hero")]
    styleMap := .ofList [("color", .string "red")] }

/-- A component that is called like a stylesheet, around a node of a type that is called so. -/
def dottedCard : Definition :=
  .ofNode "Card.css" { type := "Card.css" }

end Generator

end ComponentGen
