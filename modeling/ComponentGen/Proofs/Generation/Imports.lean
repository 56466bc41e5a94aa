import ComponentGen.Proofs.Generated.ImportLines
import ComponentGen.Proofs.Generation.Paths
/-!
# Imports of generated modules

A generated module imports libraries, base components from a folder of its own choice, other
generated modules and stylesheets. Whether a component has a stylesheet is settled once, from the
rules of its tree, and then asked for in its module, in its story, in the common stylesheet and in
the renderer; none of them imports a file that is not there.
-/

namespace ComponentGen

open Generated

/-! ## Import lines -/

namespace Generated

theorem importLines_append (first second : List Import) :
    importLines (first ++ second) = importLines first ++ importLines second :=
  List.map_append

/-- What an import line of a generated module names. -/
inductive Target where
  /-- React, in a module. -/
  | react
  /-- React, in a story. -/
  | storyReact
  /-- The types of stories. -/
  | storyTypes
  /-- A base component. -/
  | base (type : String)
  /-- The export of a generated module. -/
  | sibling (name : String)
  /-- The type of component data in the renderer. -/
  | rendererData
  /-- A stylesheet beside the importing module. -/
  | stylesheet (stem : String)
deriving DecidableEq, Repr

namespace Target

/-- The line that imports the target. Base components are in the folder. -/
def line (folder : String) : Target → String
  | react => "import React from 'react';"
  | storyReact => "import React from \"react\";"
  | storyTypes => "import type \x7b Meta, StoryObj \x7d from \"@storybook/react\";"
  | base type => (Import.inFolder folder type).line
  | sibling name => (Import.sibling name).line
  | rendererData => "import type \x7b ComponentData \x7d from './Renderer';"
  | stylesheet stem => (Import.stylesheet ("./" ++ stem ++ ".css")).line

/-- A target that is to be generated is one of the files with the given paths. -/
def Resolves (paths : List String) : Target → Prop
  | react | storyReact | storyTypes | base _ => True
  | sibling name => name ++ ".tsx" ∈ paths
  | rendererData => "Renderer.tsx" ∈ paths
  | stylesheet stem => stem ++ ".css" ∈ paths

/-- The line of a stylesheet is told from other imports by its quote. -/
theorem exists_of_line_eq_stylesheet {folder : String} {target : Target} {path : String}
    (same : target.line folder = (Import.stylesheet path).line) :
    ∃ stem, target = .stylesheet stem := by
  have quoted : "import '".toList <+: (target.line folder).toList := by
    rw [same, Import.line, String.append_assoc, String.toList_append]
    exact List.prefix_append _ _
  have named : Apart "import '" "import \x7b " := by decide
  cases target with
  | react | storyReact | storyTypes | rendererData => exact absurd quoted (by rw [line]; decide)
  | stylesheet stem => exact ⟨stem, rfl⟩
  | base type => exact absurd quoted ((((named.append _).append _).append _).append _).1
  | sibling name => exact absurd quoted ((((named.append _).append _).append _).append _).1

theorem sheetLine_mem_iff {folder stem : String} {targets : List Target} :
    (stylesheet stem).line folder ∈ targets.map (line folder) ↔ stylesheet stem ∈ targets := by
  refine ⟨fun member => ?_, List.mem_map_of_mem⟩
  obtain ⟨target, isTarget, same⟩ := List.mem_map.1 member
  obtain ⟨other, rfl⟩ := exists_of_line_eq_stylesheet same
  simp only [line, Import.line] at same
  rw [String.append_left_inj, String.append_right_inj, String.append_left_inj,
    String.append_right_inj] at same
  exact same ▸ isTarget

theorem map_line_base (folder : String) (types : List String) :
    (types.map base).map (line folder) = importLines (types.map (.inFolder folder)) := by
  rw [importLines, List.map_map, List.map_map]
  rfl

theorem map_line_sibling (folder : String) (names : List String) :
    (names.map sibling).map (line folder) = importLines (names.map .sibling) := by
  rw [importLines, List.map_map, List.map_map]
  rfl

theorem map_line_stylesheet (folder stem : String) (added : Bool) :
    (if added then [stylesheet stem] else []).map (line folder) =
      importLines (if added then [.stylesheet ("./" ++ stem ++ ".css")] else []) := by
  cases added <;> rfl

end Target

end Generated

namespace Generator

/-! ## What a project is made of -/

variable {g : Generator} {definitions : List Definition} {project : Project}

/-- A project of some definitions was put together from what was generated for each of them and from
the renderer story. -/
theorem exists_story_of_generate (nonempty : definitions ≠ [])
    (generated : g.generate definitions = .ok project) :
    ∃ story, g.rendererStory definitions = .ok story ∧
      project = g.assembled definitions story := by
  rw [generate, mapM_component] at generated
  obtain ⟨components, made, rest⟩ := exists_of_bind_eq_ok generated
  obtain ⟨-, rfl⟩ := outcome_eq_ok_iff.1 made
  cases definitions with
  | nil => exact absurd rfl nonempty
  | cons first others =>
      obtain ⟨story, isStory, isProject⟩ := exists_of_bind_eq_ok rest
      exact ⟨story, isStory, (Except.ok.inj isProject).symm⟩

theorem mem_files_of_mem_componentFiles (generated : g.generate definitions = .ok project)
    {d : Definition} (isDefinition : d ∈ definitions) {file : GeneratedFile}
    (member : file ∈ componentFiles (g.emitted d)) : file ∈ project.files := by
  obtain ⟨story, -, rfl⟩ := exists_eq_assembled generated
  rw [files_assembled g definitions (List.ne_nil_of_mem isDefinition), List.append_assoc]
  exact List.mem_append_left _ (List.mem_flatMap.2 ⟨_, List.mem_map_of_mem isDefinition, member⟩)

theorem module_mem_paths (nonempty : definitions ≠ [])
    (generated : g.generate definitions = .ok project) {name : String}
    (isModule : name ∈ modules definitions) : name ++ ".tsx" ∈ project.paths := by
  have paths := (paths_of_generate generated).resolve_left fun none_here => nonempty none_here.1
  rw [paths.mem_iff]
  exact List.mem_append_left _ (List.mem_map_of_mem (List.mem_append_left _ isModule))

theorem sheet_mem_paths_iff (nonempty : definitions ≠ [])
    (generated : g.generate definitions = .ok project) {stem : String} :
    stem ++ ".css" ∈ project.paths ↔ stem ∈ g.sheetStems definitions := by
  have paths := (paths_of_generate generated).resolve_left fun none_here => nonempty none_here.1
  rw [paths.mem_iff, List.mem_append, List.mem_map, List.mem_map]
  constructor
  · rintro (⟨name, -, same⟩ | ⟨other, isStem, same⟩)
    · exact absurd same (module_ne_stylesheet name stem)
    · rwa [← (String.append_left_inj ".css").1 same]
  · intro isStem
    exact .inr ⟨stem, isStem, rfl⟩

/-- The stylesheet of a component is there if the component has one: other components have other
names, and none is called like the common stylesheet. -/
theorem ownSheet_mem_paths_iff {stems : List String} (names : NamesFromStems stems definitions)
    (generated : g.generate definitions = .ok project) {d : Definition}
    (isDefinition : d ∈ definitions) :
    d.name ++ ".css" ∈ project.paths ↔ g.hasStylesheet d = true := by
  rw [sheet_mem_paths_iff (List.ne_nil_of_mem isDefinition) generated, sheetStems, List.mem_cons]
  constructor
  · rintro (isStyle | inSheets)
    · exact absurd (isStyle ▸ List.mem_map_of_mem isDefinition) names.style_not_mem
    · obtain ⟨other, isOther, same⟩ := List.mem_map.1 inSheets
      obtain ⟨inDefinitions, has⟩ := List.mem_filter.1 isOther
      rwa [← List.inj_on_of_nodup_map names.distinct inDefinitions isDefinition same]
  · intro has
    exact .inr (List.mem_map_of_mem (List.mem_filter.2 ⟨isDefinition, has⟩))

/-! ## Modules -/

/-- A module of a project. -/
inductive GeneratedModule where
  /-- The module of a component. -/
  | component (d : Definition)
  /-- The story of a component. -/
  | story (d : Definition)
  /-- The renderer. -/
  | renderer
  /-- The story of the renderer. -/
  | rendererStory (records : List Record)

/-- The module is generated for one of the definitions or for all of them. -/
def GeneratedModule.IsOf (definitions : List Definition) : GeneratedModule → Prop
  | component d | story d => d ∈ definitions
  | renderer | rendererStory _ => True

variable (g definitions)

/-- The body of the story of a component. -/
def storyBody (d : Definition) : Story.Body :=
  Story.bodyOf d.node (g.interfaces.getOrEmpty d.name) (g.interfaces.getOrEmpty d.name).index
    g.options

/-- The file of a module. -/
def file : GeneratedModule → GeneratedFile
  | .component d => ⟨d.name ++ ".tsx", moduleText d.name (g.interfaces.getOrEmpty d.name) (g.root d)
      g.options (g.hasStylesheet d)⟩
  | .story d => ⟨d.name ++ ".stories.tsx", Story.text d.name d.node
      (g.interfaces.getOrEmpty d.name) (g.interfaces.getOrEmpty d.name).index (g.hasStylesheet d)
      g.options⟩
  | .renderer => ⟨"Renderer.tsx",
      Renderer.text (definitions.map (·.name)) (definitions.any g.hasStylesheet)⟩
  | .rendererStory records => ⟨"Renderer.stories.tsx", RendererStory.text records⟩

/-- What a module imports, in the order of its lines. -/
def targets : GeneratedModule → List Target
  | .component d => [.react] ++ (sortedDistinct (instantiatedTypes (g.root d))).map .base ++
      (if g.hasStylesheet d then [.stylesheet d.name] else [])
  | .story d => [.storyReact, .storyTypes, .sibling d.name] ++
      (match g.storyBody d with
        | .children => (sortedDistinct d.node.merge.types).map .base
        | _ => []) ++
      (if g.hasStylesheet d then [.stylesheet d.name] else [])
  | .renderer => [.react] ++
      (if definitions.any g.hasStylesheet then [.stylesheet "style"] else []) ++
      (sortedDistinct (definitions.map (·.name))).map .sibling
  | .rendererStory _ => [.storyReact, .storyTypes, .sibling "Renderer", .rendererData]

/-- The import lines of a module. -/
def importLinesOf (m : GeneratedModule) : List String :=
  (g.targets definitions m).map (Target.line g.options.componentsImportPath)

/-- What is inserted in the lines of a module that are no imports. -/
def inserted : GeneratedModule → List String
  | .component d => insertedLines d.name (g.interfaces.getOrEmpty d.name) (g.root d) g.options
  | .story d => d.name :: (g.storyBody d).lines d.name d.node.merge
  | .renderer => (Renderer.registry (definitions.map (·.name))).map Renderer.registryLine
  | .rendererStory records => RendererStory.listLines 6 records

variable {definitions}

theorem importLinesOf_component (d : Definition) :
    g.importLinesOf definitions (.component d) =
      importLines (moduleImports d.name (g.root d) g.options (g.hasStylesheet d)) := by
  rw [importLinesOf, targets, List.map_append, List.map_append, Target.map_line_base,
    Target.map_line_stylesheet, moduleImports, importLines_append, importLines_append]
  rfl

/-- A story that shows the children of the merged tree imports their types, and no other does. -/
theorem importLinesOf_story (d : Definition) :
    g.importLinesOf definitions (.story d) = Story.libraryLines ++ importLines
      (Story.imports d.name d.node.merge (g.storyBody d) (g.hasStylesheet d) g.options) := by
  cases body : g.storyBody d <;>
    simp only [importLinesOf, targets, Story.imports, body, List.map_append,
      Target.map_line_base, Target.map_line_stylesheet, importLines_append, List.append_assoc] <;>
    rfl

theorem importLinesOf_renderer :
    g.importLinesOf definitions .renderer = "import React from 'react';" :: importLines
      (Renderer.imports (definitions.map (·.name)) (definitions.any g.hasStylesheet)) := by
  rw [importLinesOf, targets, List.map_append, List.map_append, Target.map_line_stylesheet,
    Target.map_line_sibling, Renderer.imports, importLines_append, List.append_assoc]
  rfl

theorem opensWith_file (m : GeneratedModule) :
    OpensWith (g.file definitions m).content (g.importLinesOf definitions m)
      (g.inserted definitions m) := by
  cases m with
  | component d =>
      rw [importLinesOf_component]
      exact opensWith_moduleText ..
  | story d =>
      rw [importLinesOf_story]
      exact Story.opensWith_text ..
  | renderer =>
      rw [importLinesOf_renderer]
      exact Renderer.opensWith_text ..
  | rendererStory records => exact RendererStory.opensWith_text records

/-! ### The files of a project -/

variable (definitions)

theorem code_emitted (d : Definition) :
    (g.emitted d).source.code = (g.file definitions (.component d)).content := by
  rw [file, hasStylesheet, emitted, componentSource, Option.isSome_map]

theorem story_emitted (d : Definition) :
    (g.emitted d).story =
      if g.options.stories then some (g.file definitions (.story d)).content else none := by
  rw [emitted]
  rfl

theorem componentFiles_emitted (d : Definition) :
    componentFiles (g.emitted d) =
      [g.file definitions (.component d)] ++
      ((g.emitted d).source.stylesheet.map fun css => ⟨d.name ++ ".css", css⟩).toList ++
      if g.options.stories then [g.file definitions (.story d)] else [] := by
  rw [componentFiles, code_emitted g definitions, story_emitted g definitions]
  cases g.options.stories <;> rfl

theorem isEmpty_sections :
    ((definitions.map g.emitted).filterMap sheetSection?).isEmpty =
      !definitions.any g.hasStylesheet := by
  induction definitions with
  | nil => rfl
  | cons d rest ih =>
      rw [List.map_cons, List.filterMap_cons, List.any_cons, hasStylesheet, sheetSection?]
      cases (g.emitted d).source.stylesheet with
      | none => exact ih
      | some css => rfl

variable {g definitions}

theorem file_mem_files_component (generated : g.generate definitions = .ok project)
    {d : Definition} (isDefinition : d ∈ definitions) :
    g.file definitions (.component d) ∈ project.files := by
  refine mem_files_of_mem_componentFiles generated isDefinition ?_
  rw [g.componentFiles_emitted definitions d, List.append_assoc]
  exact List.mem_append_left _ List.mem_cons_self

theorem file_mem_files_story (generated : g.generate definitions = .ok project)
    {d : Definition} (isDefinition : d ∈ definitions) (stories : g.options.stories = true) :
    g.file definitions (.story d) ∈ project.files := by
  refine mem_files_of_mem_componentFiles generated isDefinition ?_
  rw [g.componentFiles_emitted definitions d, if_pos stories]
  exact List.mem_append_right _ List.mem_cons_self

theorem exists_records_of_mem_rendererStory {story : List GeneratedFile}
    (made : g.rendererStory definitions = .ok story) {file : GeneratedFile}
    (member : file ∈ story) : ∃ records, g.file definitions (.rendererStory records) = file := by
  unfold rendererStory at made
  split at made
  · obtain ⟨records, -, isStory⟩ := exists_of_bind_eq_ok made
    cases isStory
    exact ⟨records, (List.mem_singleton.1 member).symm⟩
  · cases made
    cases member

/-- Every file of a project is the stylesheet of a component, the common stylesheet or one of its
modules. -/
theorem mem_files_cases (nonempty : definitions ≠ [])
    (generated : g.generate definitions = .ok project) {file : GeneratedFile}
    (member : file ∈ project.files) :
    (∃ d css, (g.emitted d).source.stylesheet = some css ∧ file = ⟨d.name ++ ".css", css⟩) ∨
      file = ⟨"style.css",
        "\n".intercalate ((definitions.map g.emitted).filterMap sheetSection?)⟩ ∨
      ∃ m : GeneratedModule, m.IsOf definitions ∧ g.file definitions m = file := by
  obtain ⟨story, isStory, rfl⟩ := exists_story_of_generate nonempty generated
  rw [files_assembled g definitions nonempty, List.mem_append, List.mem_append, List.mem_cons,
    List.mem_singleton, isEmpty_sections, Bool.not_not, List.map_map] at member
  rcases member with (inComponents | isCommon | rfl) | inStory
  · obtain ⟨c, isComponent, inFiles⟩ := List.mem_flatMap.1 inComponents
    obtain ⟨d, isDefinition, rfl⟩ := List.mem_map.1 isComponent
    rw [g.componentFiles_emitted definitions d, List.mem_append, List.mem_append,
      List.mem_singleton, Option.mem_toList, Option.map_eq_some_iff] at inFiles
    rcases inFiles with (rfl | ⟨css, isSheet, rfl⟩) | isStory
    · exact .inr (.inr ⟨.component d, isDefinition, rfl⟩)
    · exact .inl ⟨d, css, isSheet, rfl⟩
    · split at isStory
      · exact .inr (.inr ⟨.story d, isDefinition, (List.mem_singleton.1 isStory).symm⟩)
      · cases isStory
  · exact .inr (.inl isCommon)
  · exact .inr (.inr ⟨.renderer, trivial, rfl⟩)
  · obtain ⟨records, same⟩ := exists_records_of_mem_rendererStory isStory inStory
    exact .inr (.inr ⟨.rendererStory records, trivial, same⟩)

/-- Every file of a project is a stylesheet or one of its modules. -/
theorem exists_module_of_mem_files (nonempty : definitions ≠ [])
    (generated : g.generate definitions = .ok project) {file : GeneratedFile}
    (member : file ∈ project.files) :
    (∃ stem, file.path = stem ++ ".css") ∨
      ∃ m : GeneratedModule, m.IsOf definitions ∧ g.file definitions m = file := by
  rcases mem_files_cases nonempty generated member with ⟨d, css, -, rfl⟩ | rfl | isModule
  · exact .inl ⟨d.name, rfl⟩
  · exact .inl ⟨"style", rfl⟩
  · exact .inr isModule

/-! ### What the modules of a project import -/

variable {stems : List String}

theorem stylesheet_mem_targets_iff {d : Definition} {m : GeneratedModule}
    (ofComponent : m = .component d ∨ m = .story d) :
    .stylesheet d.name ∈ g.targets definitions m ↔ g.hasStylesheet d = true := by
  rcases ofComponent with rfl | rfl
  · simp [targets]
  · cases body : g.storyBody d <;> simp [targets, body]

/-- The files that a module imports are generated with it. -/
theorem resolves_targets (nonempty : definitions ≠ []) (names : NamesFromStems stems definitions)
    (generated : g.generate definitions = .ok project) {m : GeneratedModule}
    (isOf : m.IsOf definitions) :
    ∀ target ∈ g.targets definitions m, target.Resolves project.paths := by
  have base (types : List String) :
      ∀ target ∈ types.map Target.base, target.Resolves project.paths := by
    rw [List.forall_mem_map]
    exact fun _ _ => trivial
  have ownSheet {d : Definition} (isDefinition : d ∈ definitions) :
      ∀ target ∈ if g.hasStylesheet d then [Target.stylesheet d.name] else [],
        target.Resolves project.paths := by
    split
    · next has =>
        have own := (ownSheet_mem_paths_iff names generated isDefinition).2 has
        exact List.forall_mem_singleton.2 own
    · exact fun _ member => nomatch member
  have isModule {name : String} (member : name ∈ definitions.map (·.name)) :
      name ++ ".tsx" ∈ project.paths :=
    module_mem_paths nonempty generated (List.mem_cons_of_mem _ member)
  have renderer : "Renderer" ++ ".tsx" ∈ project.paths :=
    module_mem_paths nonempty generated List.mem_cons_self
  cases m with
  | component d =>
      rw [targets, List.forall_mem_append, List.forall_mem_append]
      exact ⟨⟨List.forall_mem_singleton.2 trivial, base _⟩, ownSheet isOf⟩
  | story d =>
      have here : (Target.sibling d.name).Resolves project.paths :=
        isModule (List.mem_map_of_mem isOf)
      rw [targets, List.forall_mem_append, List.forall_mem_append]
      refine ⟨⟨?_, ?_⟩, ownSheet isOf⟩
      · simpa [Target.Resolves] using here
      · split
        · exact base _
        · exact fun _ member => nomatch member
  | renderer =>
      rw [targets, List.forall_mem_append, List.forall_mem_append, List.forall_mem_map]
      refine ⟨⟨List.forall_mem_singleton.2 trivial, ?_⟩, ?_⟩
      · split
        · have common := (sheet_mem_paths_iff nonempty generated).2
            (List.mem_cons_self (a := "style"))
          exact List.forall_mem_singleton.2 common
        · exact fun _ member => nomatch member
      · exact fun name isName => isModule (mem_sortedDistinct.1 isName)
  | rendererStory records =>
      intro target member
      simp only [targets, List.mem_cons, List.not_mem_nil, or_false] at member
      rcases member with rfl | rfl | rfl | rfl
      · trivial
      · trivial
      · exact renderer
      · exact renderer

/-- The text of a module opens with its import lines, and what they import is there. -/
structure ImportsResolve (g : Generator) (definitions : List Definition) (project : Project)
    (m : GeneratedModule) : Prop where
  opens : OpensWith (g.file definitions m).content (g.importLinesOf definitions m)
    (g.inserted definitions m)
  resolves : ∀ target ∈ g.targets definitions m, target.Resolves project.paths

/-- The module is one of the files, its imports are there, and it imports the stylesheet of the
component exactly when there is one. -/
structure ImportsOwnSheet (g : Generator) (definitions : List Definition) (project : Project)
    (d : Definition) (m : GeneratedModule) : Prop extends
    ImportsResolve g definitions project m where
  isFile : g.file definitions m ∈ project.files
  own : (Target.stylesheet d.name).line g.options.componentsImportPath ∈
    g.importLinesOf definitions m ↔ d.name ++ ".css" ∈ project.paths

/-- In a generated project every file that is no stylesheet is a module, and each of its imports
names a library, a base component or a file of the project. The module of a component imports the
stylesheet of the component exactly when the project has it, and so does its story. -/
theorem imports_resolve (nonempty : definitions ≠ []) (names : NamesFromStems stems definitions)
    (generated : g.generate definitions = .ok project) :
    (∀ file ∈ project.files, (∃ stem, file.path = stem ++ ".css") ∨
      ∃ m : GeneratedModule, m.IsOf definitions ∧ g.file definitions m = file ∧
        g.ImportsResolve definitions project m) ∧
    ∀ d ∈ definitions, g.ImportsOwnSheet definitions project d (.component d) ∧
      (g.options.stories = true → g.ImportsOwnSheet definitions project d (.story d)) := by
  have resolve {m : GeneratedModule} (isOf : m.IsOf definitions) :
      g.ImportsResolve definitions project m :=
    ⟨g.opensWith_file m, resolves_targets nonempty names generated isOf⟩
  have own {d : Definition} (isDefinition : d ∈ definitions) {m : GeneratedModule}
      (ofComponent : m = .component d ∨ m = .story d) :
      (Target.stylesheet d.name).line g.options.componentsImportPath ∈
        g.importLinesOf definitions m ↔ d.name ++ ".css" ∈ project.paths := by
    rw [importLinesOf, Target.sheetLine_mem_iff, stylesheet_mem_targets_iff ofComponent,
      ownSheet_mem_paths_iff names generated isDefinition]
  refine ⟨fun file member => ?_, fun d isDefinition => ⟨?_, fun stories => ?_⟩⟩
  · refine (exists_module_of_mem_files nonempty generated member).imp_right ?_
    rintro ⟨m, isOf, same⟩
    exact ⟨m, isOf, same, resolve isOf⟩
  · exact ⟨resolve isDefinition, file_mem_files_component generated isDefinition,
      own isDefinition (.inl rfl)⟩
  · exact ⟨resolve isDefinition, file_mem_files_story generated isDefinition stories,
      own isDefinition (.inr rfl)⟩

/-- A generator with the default options, where no interface is declared. -/
def defaultGenerator : Generator where
  options := {}
  interfaces := .empty

/-- A styled card and a note without styles. -/
def cardAndNote : List Definition :=
  [.ofNode "Card" { type := "Box", styleMap := .ofList [("color", .string "red")] },
    .ofNode "Note" { type := "Text" }]

theorem imports_resolve_cardAndNote :
    cardAndNote ≠ [] ∧ NamesFromStems ["card", "note"] cardAndNote ∧
    ∃ project, defaultGenerator.generate cardAndNote = .ok project ∧
      project.paths = ["Card.tsx", "Card.css", "Card.stories.tsx", "Note.tsx", "Note.stories.tsx",
        "style.css", "Renderer.tsx", "Renderer.stories.tsx"] ∧
      (∀ file ∈ project.files, (∃ stem, file.path = stem ++ ".css") ∨
        ∃ m : GeneratedModule, m.IsOf cardAndNote ∧ defaultGenerator.file cardAndNote m = file ∧
          defaultGenerator.ImportsResolve cardAndNote project m) ∧
      ∀ d ∈ cardAndNote,
        defaultGenerator.ImportsOwnSheet cardAndNote project d (.component d) ∧
        defaultGenerator.ImportsOwnSheet cardAndNote project d (.story d) := by
  have nonempty : cardAndNote ≠ [] := List.cons_ne_nil _ _
  have names : NamesFromStems ["card", "note"] cardAndNote := ⟨by decide, by decide⟩
  have generated : defaultGenerator.generate cardAndNote = .ok _ := rfl
  obtain ⟨files, components⟩ := imports_resolve nonempty names generated
  exact ⟨nonempty, names, _, generated, rfl, files, fun d isDefinition =>
    (components d isDefinition).imp_right fun story => story rfl⟩

end Generator

end ComponentGen
