import ComponentGen.Proofs.Generation.Outcome
import ComponentGen.Proofs.Naming
import ComponentGen.Proofs.Project
import Mathlib.Data.List.Perm.Basic
/-!
# Paths of generated files

The files of the components and those of the whole project are written into one folder. Their paths
are the names of modules and stylesheets with an extension, and a story is a module whose name ends
in `.stories`. No two paths are the same exactly when no component is called like the renderer or
like the story of another module; nothing in generation keeps names from being like that.
-/

namespace ComponentGen

/-! ## Extensions -/

theorem nodup_map_append_iff {names : List String} (extension : String) :
    (names.map (· ++ extension)).Nodup ↔ names.Nodup :=
  List.nodup_map_iff fun _ _ same => (String.append_left_inj extension).1 same

theorem flatMap_if {α β : Type} (select : α → Bool) (use : α → β) (items : List α) :
    (items.flatMap fun item => if select item then [use item] else []) =
      (items.filter select).map use := by
  induction items with
  | nil => rfl
  | cons item rest ih =>
      rw [List.flatMap_cons, ih, List.filter_cons]
      cases select item <;> rfl

theorem getLast?_append_extension {extension : String} {c : Char}
    (last : extension.toList.getLast? = some c) (name : String) :
    (name ++ extension).toList.getLast? = some c := by
  rw [String.toList_append, List.getLast?_append, last, Option.some_or]

/-- A module and a stylesheet have different paths. -/
theorem module_ne_stylesheet (first second : String) : first ++ ".tsx" ≠ second ++ ".css" := by
  intro same
  have last : (first ++ ".tsx").toList.getLast? = some 'x' := getLast?_append_extension rfl first
  rw [same, getLast?_append_extension (c := 's') rfl second] at last
  exact absurd last (by decide)

/-- A story is not called like the renderer. -/
theorem story_ne_renderer (name : String) : name ++ ".stories" ≠ "Renderer" := by
  intro same
  have last : (name ++ ".stories").toList.getLast? = some 's' := getLast?_append_extension rfl name
  rw [same] at last
  exact absurd last (by decide)

theorem nodup_append_stories_iff {names : List String} :
    (names ++ names.map (· ++ ".stories")).Nodup ↔
      names.Nodup ∧ ∀ name ∈ names, name ++ ".stories" ∉ names := by
  rw [List.nodup_append, nodup_map_append_iff]
  constructor
  · rintro ⟨distinct, -, apart⟩
    refine ⟨distinct, fun name isModule isStory => ?_⟩
    exact apart _ isStory _ (List.mem_map_of_mem isModule) rfl
  · rintro ⟨distinct, apart⟩
    refine ⟨distinct, distinct, ?_⟩
    rintro _ isModule _ isStory rfl
    obtain ⟨name, isName, rfl⟩ := List.mem_map.1 isStory
    exact apart name isName isModule

theorem storyPath_eq (name : String) : name ++ ".stories.tsx" = name ++ ".stories" ++ ".tsx" := by
  rw [String.append_assoc]
  rfl

namespace Generator

variable (g : Generator) (definitions : List Definition)

/-- The names of the modules that are no stories. -/
def modules : List String :=
  "Renderer" :: definitions.map (·.name)

/-- The names of all modules. -/
def moduleStems : List String :=
  modules definitions ++
    if g.options.stories then (modules definitions).map (· ++ ".stories") else []

def hasStylesheet (d : Definition) : Bool :=
  (g.emitted d).source.stylesheet.isSome

/-- The names of the stylesheets. -/
def sheetStems : List String :=
  "style" :: (definitions.filter g.hasStylesheet).map (·.name)

theorem map_path_componentFiles (d : Definition) :
    (componentFiles (g.emitted d)).map (·.path) =
      [d.name ++ ".tsx"] ++ (if g.hasStylesheet d then [d.name ++ ".css"] else []) ++
        if g.options.stories then [d.name ++ ".stories" ++ ".tsx"] else [] := by
  have named : (g.emitted d).source.name = d.name := rfl
  rw [componentFiles, List.map_append, List.map_append, named, storyPath_eq, hasStylesheet]
  congr 1
  · cases (g.emitted d).source.stylesheet <;> rfl
  · rw [emitted]
    cases g.options.stories <;> rfl

/-- The files of the components, sorted by what they are. -/
theorem componentFiles_perm :
    (((definitions.map g.emitted).flatMap componentFiles).map (·.path)).Perm
      ((definitions.map fun d => d.name ++ ".tsx") ++
        ((definitions.filter g.hasStylesheet).map fun d => d.name ++ ".css") ++
        (definitions.filter fun _ => g.options.stories).map fun d =>
          d.name ++ ".stories" ++ ".tsx") := by
  rw [List.flatMap_map, List.map_flatMap, List.flatMap_congr fun d _ => g.map_path_componentFiles d,
    ← flatMap_if, ← flatMap_if, List.map_eq_flatMap]
  exact ((List.flatMap_append_perm definitions _ _).append_right _).trans
    (List.flatMap_append_perm definitions _ _) |>.symm

/-- The paths of a project are the names of its modules and stylesheets with their extensions. -/
theorem paths_perm (nonempty : definitions ≠ []) {story : List GeneratedFile}
    (isStory : story.map (·.path) = if g.options.stories then ["Renderer.stories.tsx"] else []) :
    (g.assembled definitions story).paths.Perm
      ((g.moduleStems definitions).map (· ++ ".tsx") ++
        (g.sheetStems definitions).map (· ++ ".css")) := by
  rw [Project.paths, files_assembled g definitions nonempty, List.map_append, List.map_append,
    isStory]
  refine ((g.componentFiles_perm definitions).append_right _).append_right _ |>.trans ?_
  have rendererStory : "Renderer.stories.tsx" = "Renderer" ++ ".stories" ++ ".tsx" := rfl
  have renderer : "Renderer.tsx" = "Renderer" ++ ".tsx" := rfl
  have style : "style.css" = "style" ++ ".css" := rfl
  rw [moduleStems, modules, sheetStems, List.perm_iff_count, rendererStory, renderer, style]
  intro path
  cases g.options.stories <;>
    simp only [List.map_append, List.map_cons, List.map_map, Function.comp_def, List.count_append,
      List.count_cons, List.count_nil, List.filter_true, List.filter_false, List.map_nil,
      Bool.false_eq_true, ↓reduceIte] <;>
    omega

/-- The renderer, or the story of a module, has the name of a component. -/
def NameClash (stories : Bool) (names : List String) : Prop :=
  "Renderer" ∈ names ∨
    stories = true ∧ ∃ name ∈ "Renderer" :: names, name ++ ".stories" ∈ names

variable {definitions}

theorem nodup_moduleStems_iff (distinct : (definitions.map (·.name)).Nodup) :
    (g.moduleStems definitions).Nodup ↔
      ¬ NameClash g.options.stories (definitions.map (·.name)) := by
  have nodup_iff : (g.moduleStems definitions).Nodup ↔ (modules definitions).Nodup ∧
      (g.options.stories = true → ∀ name ∈ modules definitions,
        name ++ ".stories" ∉ modules definitions) := by
    rw [moduleStems]
    cases g.options.stories with
    | false => simp
    | true => simpa using nodup_append_stories_iff
  rw [nodup_iff, modules, List.nodup_cons]
  constructor
  · rintro ⟨⟨notRenderer, -⟩, apart⟩ (isRenderer | ⟨stories, name, isModule, isComponent⟩)
    · exact notRenderer isRenderer
    · exact apart stories name isModule (List.mem_cons_of_mem _ isComponent)
  · intro free
    refine ⟨⟨fun isRenderer => free (.inl isRenderer), distinct⟩, ?_⟩
    intro stories name isModule isStory
    rcases List.mem_cons.1 isStory with isRenderer | isComponent
    · exact story_ne_renderer name isRenderer
    · exact free (.inr ⟨stories, name, isModule, isComponent⟩)

theorem nodup_sheetStems (distinct : (definitions.map (·.name)).Nodup)
    (notStyle : "style" ∉ definitions.map (·.name)) : (g.sheetStems definitions).Nodup := by
  have filtered : ((definitions.filter g.hasStylesheet).map (·.name)).Sublist
      (definitions.map (·.name)) := List.filter_sublist.map _
  exact List.nodup_cons.2
    ⟨fun member => notStyle (filtered.subset member), distinct.sublist filtered⟩

/-! ## Names from file stems -/

/-- The names of the definitions are those of file stems, and no two are the same. -/
structure NamesFromStems (stems : List String) (definitions : List Definition) : Prop where
  fromStems : definitions.map (·.name) = stems.map Naming.componentName
  distinct : (definitions.map (·.name)).Nodup

namespace NamesFromStems

variable {stems : List String} (names : NamesFromStems stems definitions)

include names

theorem style_not_mem : "style" ∉ definitions.map (·.name) := by
  rw [names.fromStems]
  intro member
  obtain ⟨stem, -, isStyle⟩ := List.mem_map.1 member
  exact Naming.componentName_ne (c := 's') rfl rfl stem isStyle

variable (noSlash : ∀ stem ∈ stems, '/' ∉ stem.toList)

include noSlash

theorem slash_not_mem {name : String} (member : name ∈ definitions.map (·.name)) :
    '/' ∉ name.toList := by
  rw [names.fromStems] at member
  obtain ⟨stem, isStem, rfl⟩ := List.mem_map.1 member
  exact Naming.slash_not_mem_componentName (noSlash stem isStem)

theorem slash_not_mem_modules {name : String} (member : name ∈ modules definitions) :
    '/' ∉ name.toList := by
  rcases List.mem_cons.1 member with rfl | isComponent
  · decide
  · exact names.slash_not_mem noSlash isComponent

theorem slash_not_mem_moduleStems {stem : String} (member : stem ∈ g.moduleStems definitions) :
    '/' ∉ stem.toList := by
  rw [moduleStems, List.mem_append] at member
  rcases member with isModule | isStory
  · exact names.slash_not_mem_modules noSlash isModule
  · split at isStory
    · obtain ⟨name, isModule, rfl⟩ := List.mem_map.1 isStory
      rw [String.toList_append, List.mem_append, not_or]
      exact ⟨names.slash_not_mem_modules noSlash isModule, by decide⟩
    · cases isStory

theorem slash_not_mem_sheetStems {stem : String} (member : stem ∈ g.sheetStems definitions) :
    '/' ∉ stem.toList := by
  rcases List.mem_cons.1 member with rfl | isComponent
  · decide
  · exact names.slash_not_mem noSlash ((List.filter_sublist.map _).subset isComponent)

end NamesFromStems

/-- A name with an extension is a file name. -/
theorem isFileName_append {stem extension : String} (free : '/' ∉ stem.toList)
    (extensionFree : '/' ∉ extension.toList) (long : 3 ≤ extension.length) :
    FileTree.IsFileName (stem ++ extension) := by
  have length : 3 ≤ (stem ++ extension).length := by
    rw [String.length_append]
    omega
  have ne_of_short {name : String} (short : name.length < 3) : stem ++ extension ≠ name := by
    rintro same
    rw [same] at length
    omega
  refine ⟨?_, ne_of_short (by decide), ne_of_short (by decide), ne_of_short (by decide)⟩
  rw [String.toList_append, List.mem_append, not_or]
  exact ⟨free, extensionFree⟩

/-! ## Generated projects -/

variable {g} {stems : List String} {project : Project}

theorem paths_of_generate (generated : g.generate definitions = .ok project) :
    definitions = [] ∧ project.paths = [] ∨
      project.paths.Perm ((g.moduleStems definitions).map (· ++ ".tsx") ++
        (g.sheetStems definitions).map (· ++ ".css")) := by
  obtain ⟨story, isStory, rfl⟩ := exists_eq_assembled generated
  by_cases none_here : definitions = []
  · subst none_here
    exact .inl ⟨rfl, rfl⟩
  · exact .inr (g.paths_perm definitions none_here isStory)

/-- No two files have one path exactly when no name clashes. -/
theorem nodup_paths_iff (names : NamesFromStems stems definitions)
    (generated : g.generate definitions = .ok project) :
    project.paths.Nodup ↔ ¬ NameClash g.options.stories (definitions.map (·.name)) := by
  rcases paths_of_generate generated with ⟨rfl, none_here⟩ | paths
  · rw [none_here]
    refine iff_of_true List.nodup_nil ?_
    rintro (isRenderer | ⟨-, name, -, isComponent⟩)
    · cases isRenderer
    · cases isComponent
  · rw [paths.nodup_iff, List.nodup_append, nodup_map_append_iff, nodup_map_append_iff,
      ← g.nodup_moduleStems_iff names.distinct]
    refine ⟨fun distinct => distinct.1, fun distinct => ⟨distinct, ?_, ?_⟩⟩
    · exact g.nodup_sheetStems names.distinct names.style_not_mem
    · intro path isModule other isSheet
      obtain ⟨first, -, rfl⟩ := List.mem_map.1 isModule
      obtain ⟨second, -, rfl⟩ := List.mem_map.1 isSheet
      exact module_ne_stylesheet first second

/-- Every path names a file in the folder that the project is written into. -/
theorem isFileName_of_mem_paths (names : NamesFromStems stems definitions)
    (noSlash : ∀ stem ∈ stems, '/' ∉ stem.toList)
    (generated : g.generate definitions = .ok project) {path : String}
    (member : path ∈ project.paths) : FileTree.IsFileName path := by
  rcases paths_of_generate generated with ⟨-, none_here⟩ | paths
  · rw [none_here] at member
    cases member
  · rcases List.mem_append.1 (paths.subset member) with isModule | isSheet
    · obtain ⟨stem, isStem, rfl⟩ := List.mem_map.1 isModule
      exact isFileName_append (names.slash_not_mem_moduleStems g noSlash isStem) (by decide) (by decide)
    · obtain ⟨stem, isStem, rfl⟩ := List.mem_map.1 isSheet
      exact isFileName_append (names.slash_not_mem_sheetStems g noSlash isStem) (by decide) (by decide)

/-- The paths of a generated project are distinct exactly when no component is called like the
renderer or like the story of a module. Then, the stems being parts of file names, a project that is
written is read back file by file. -/
theorem generated_paths (names : NamesFromStems stems definitions)
    (generated : g.generate definitions = .ok project) :
    (project.paths.Nodup ↔ ¬ NameClash g.options.stories (definitions.map (·.name))) ∧
      (¬ NameClash g.options.stories (definitions.map (·.name)) →
        (∀ stem ∈ stems, '/' ∉ stem.toList) →
        ∀ (folder : String) (tree after : FileTree), project.write folder tree = (after, .ok ()) →
          ∀ path ∈ project.paths, ∃ content, project.get? path = some content ∧
            after.readText (joinPath folder path) = .ok content) := by
  have distinct_iff := nodup_paths_iff names generated
  refine ⟨distinct_iff, fun free noSlash folder tree after written => ?_⟩
  exact Project.readText_write (distinct_iff.2 free)
    (fun path member => isFileName_of_mem_paths names noSlash generated member) written

/-- A generator of modules without stories, where no interface is declared. -/
def plainGenerator : Generator where
  options := { stories := false }
  interfaces := .empty

/-- The definitions of the given file stems, each of a text. -/
def textDefinitions (stems : List String) : List Definition :=
  stems.map fun stem => .ofNode (Naming.componentName stem) { type := "Text" }

theorem namesFromStems_textDefinitions {stems : List String}
    (distinct : (stems.map Naming.componentName).Nodup) :
    NamesFromStems stems (textDefinitions stems) := by
  have fromStems : (textDefinitions stems).map (·.name) = stems.map Naming.componentName :=
    List.map_map
  exact ⟨fromStems, fromStems ▸ distinct⟩

/-- Without stories there may be a component that is called like one. -/
theorem generated_paths_cards :
    ∃ project after,
      plainGenerator.generate (textDefinitions ["card", "card.stories"]) = .ok project ∧
      project.write "generated" .empty = (after, .ok ()) ∧ project.paths.Nodup ∧
      ∀ path ∈ project.paths, ∃ content, project.get? path = some content ∧
        after.readText (joinPath "generated" path) = .ok content := by
  let project := plainGenerator.assembled (textDefinitions ["card", "card.stories"]) []
  have generated : plainGenerator.generate (textDefinitions ["card", "card.stories"]) =
      .ok project := rfl
  have written : project.write "generated" .empty = (_, .ok ()) := rfl
  have free : ¬ NameClash plainGenerator.options.stories
      ((textDefinitions ["card", "card.stories"]).map (·.name)) := by
    rintro (isRenderer | ⟨stories, -⟩)
    · revert isRenderer
      decide
    · cases stories
  have names : NamesFromStems ["card", "card.stories"] _ :=
    namesFromStems_textDefinitions (by decide)
  obtain ⟨distinct_iff, read⟩ := generated_paths names generated
  exact ⟨project, _, generated, written, distinct_iff.2 free,
    read free (by decide) _ _ _ written⟩

/-- The module of a component that is called like the renderer is lost: the renderer is written over
it. -/
theorem renderer_written_over :
    NamesFromStems ["renderer"] (textDefinitions ["renderer"]) ∧
    ∃ project after, plainGenerator.generate (textDefinitions ["renderer"]) = .ok project ∧
      project.paths = ["Renderer.tsx", "style.css", "Renderer.tsx"] ∧ ¬ project.paths.Nodup ∧
      project.write "generated" .empty = (after, .ok ()) ∧
      ∀ content, project.get? "Renderer.tsx" = some content →
        after.readText (joinPath "generated" "Renderer.tsx") ≠ .ok content := by
  let project := plainGenerator.assembled (textDefinitions ["renderer"]) []
  have written : project.write "generated" .empty = (_, .ok ()) := rfl
  refine ⟨namesFromStems_textDefinitions (by decide), project, _, rfl, rfl, by decide, written, ?_⟩
  intro content first last
  obtain rfl := Option.some.inj first
  have same := Except.ok.inj last
  revert same
  decide +kernel

end Generator

end ComponentGen
