import ComponentGen.Proofs.Generation.Outcome
import ComponentGen.Proofs.Style.ClassTable
/-!
# The common stylesheet

The common stylesheet joins the stylesheets of all components. Class names are given per component,
and the names of the components keep them apart, so that every selector of the joined stylesheet
belongs to one node only.
-/

namespace ComponentGen

namespace Generator

variable (g : Generator) (definitions : List Definition)

/-- The stylesheets of the components that have any rule, with the names of the components. -/
def sheets : List (String × Style.Stylesheet) :=
  definitions.filterMap fun d =>
    (Generated.stylesheet? d.name (g.root d) g.options.styleMode).map fun sheet => (d.name, sheet)

/-- The text that joins them, each under a comment with the name of its component. -/
def commonSheet : String :=
  "\n".intercalate ((g.sheets definitions).map fun sheet =>
    "/* " ++ sheet.1 ++ " */\n" ++ sheet.2.text ++ "\n")

theorem commonSheet_eq :
    g.commonSheet definitions =
      "\n".intercalate ((definitions.map g.emitted).filterMap sheetSection?) := by
  rw [commonSheet]
  congr 1
  rw [sheets, List.map_filterMap, List.filterMap_map]
  refine List.filterMap_congr fun d _ => ?_
  rw [Function.comp_apply, sheetSection?, emitted, Generated.componentSource, Option.map_map,
    Option.map_map]
  rfl

theorem eq_of_stylesheet? {name : String} {root : ResolvedNode} {mode : StyleMode}
    {sheet : Style.Stylesheet} (given : Generated.stylesheet? name root mode = some sheet) :
    sheet = Style.stylesheet root (Style.assignClasses name root) := by
  cases mode with
  | inline => cases given
  | classes =>
      rw [Generated.stylesheet?, Generated.classTable?, Option.bind_some] at given
      dsimp only at given
      split at given
      · cases given
      · exact (Option.some.inj given).symm

/-- Every component adds the class names of its own stylesheet only, if any. -/
theorem classNames_sheets_sublist :
    ((g.sheets definitions).flatMap fun sheet => sheet.2.classNames).Sublist
      (definitions.flatMap fun d =>
        (Style.stylesheet (g.root d) (Style.assignClasses d.name (g.root d))).classNames) := by
  rw [sheets, List.filterMap_eq_flatMap_toList, List.flatMap_assoc]
  refine List.Sublist.flatMap_right definitions fun d _ => ?_
  cases given : Generated.stylesheet? d.name (g.root d) g.options.styleMode with
  | none => exact List.nil_sublist _
  | some sheet =>
      rw [← eq_of_stylesheet? given, Option.map_some, Option.toList_some, List.flatMap_singleton]

variable {g definitions}

theorem commonSheet_mem_files {project : Project} (generated : g.generate definitions = .ok project)
    (nonempty : definitions ≠ []) :
    ⟨"style.css", g.commonSheet definitions⟩ ∈ project.files := by
  obtain ⟨story, -, rfl⟩ := exists_eq_assembled generated
  rw [files_assembled g definitions nonempty, commonSheet_eq]
  exact List.mem_append_left _ (List.mem_append_right _ List.mem_cons_self)

end Generator

/-- Class names identify nodes: within one component, within several whose names are made of letters
and digits and differ in lower case, and so in the selectors of the common stylesheet. -/
theorem classNames_identify_nodes :
    (∀ (component : String) (root : ResolvedNode),
      (Style.assignClasses component root).names.Nodup ∧
      ∀ path other, (root.nodeAt? path).isSome → (root.nodeAt? other).isSome → path ≠ other →
        ∃ first second, (Style.assignClasses component root).get? path = some first ∧
          (Style.assignClasses component root).get? other = some second ∧ first ≠ second) ∧
    (∀ components : List (String × ResolvedNode),
      (∀ component ∈ components, ∀ c ∈ component.1.toList, c.isAlphanum = true) →
      (components.map fun component => Text.lowerCase component.1).Nodup →
      (components.flatMap fun component =>
        (Style.assignClasses component.1 component.2).names).Nodup) ∧
    (∀ (g : Generator) (definitions : List Definition) (project : Project),
      (∀ d ∈ definitions, ∀ c ∈ d.name.toList, c.isAlphanum = true) →
      (definitions.map fun d => Text.lowerCase d.name).Nodup →
      definitions ≠ [] → g.generate definitions = .ok project →
      ⟨"style.css", g.commonSheet definitions⟩ ∈ project.files ∧
      ((g.sheets definitions).flatMap fun sheet => sheet.2.classNames).Nodup) := by
  refine ⟨fun component root => ⟨Style.nodup_names_assignClasses component root, ?_⟩,
    fun components => Style.nodup_flatMap_names, ?_⟩
  · intro path other isNode isOther different
    rw [← Style.isSome_get?_assignClasses component] at isNode isOther
    obtain ⟨first, found⟩ := Option.isSome_iff_exists.1 isNode
    obtain ⟨second, foundOther⟩ := Option.isSome_iff_exists.1 isOther
    refine ⟨first, second, found, foundOther, ?_⟩
    rintro rfl
    exact different (Style.get?_assignClasses_inj found foundOther)
  · intro g definitions project alphanum distinct nonempty generated
    refine ⟨Generator.commonSheet_mem_files generated nonempty, ?_⟩
    have names : ((definitions.map fun d => (d.name, g.root d)).flatMap fun component =>
        (Style.assignClasses component.1 component.2).names).Nodup := by
      apply Style.nodup_flatMap_names
      · intro component isComponent
        obtain ⟨d, isDefinition, rfl⟩ := List.mem_map.1 isComponent
        exact alphanum d isDefinition
      · rw [List.map_map]
        exact distinct
    have selectors := Style.nodup_flatMap_classNames names
    rw [List.flatMap_map] at selectors
    exact selectors.sublist (g.classNames_sheets_sublist definitions)

/-- A list of two nodes, the first of which holds a single one. -/
def twoRows : Node where
  type := "Stack"
  children := .list [
    { type := "Row-0"
      styleMap := .ofList [("color", .string "red")]
      children := .single { type := "", styleMap := .ofList [("color", .string "blue")] } },
    { type := "Row" }]

def rowsGenerator : Generator where
  options := { stories := false }
  interfaces := .empty

/-- Two components of one tree. -/
def rowsDefinitions : List Definition :=
  [.ofNode "Rows" twoRows, .ofNode "Rows2" twoRows]

theorem classNames_identify_nodes_rows :
    (∃ first second,
      (Style.assignClasses "Rows" (rowsGenerator.root (.ofNode "Rows" twoRows))).get? [0, 0] =
        some first ∧
      (Style.assignClasses "Rows" (rowsGenerator.root (.ofNode "Rows" twoRows))).get? [1] =
        some second ∧ first ≠ second) ∧
    ((rowsDefinitions.map fun d => (d.name, rowsGenerator.root d)).flatMap fun component =>
      (Style.assignClasses component.1 component.2).names).Nodup ∧
    ∃ project, rowsGenerator.generate rowsDefinitions = .ok project ∧
      ((rowsGenerator.sheets rowsDefinitions).flatMap fun sheet => sheet.2.classNames).Nodup := by
  obtain ⟨within, across, common⟩ := classNames_identify_nodes
  have alphanum : ∀ d ∈ rowsDefinitions, ∀ c ∈ d.name.toList, c.isAlphanum = true := by
    have all : (rowsDefinitions.all fun d => d.name.toList.all Char.isAlphanum) = true := by decide
    intro d isDefinition
    exact List.all_eq_true.1 (List.all_eq_true.1 all d isDefinition)
  have distinct : (rowsDefinitions.map fun d => Text.lowerCase d.name).Nodup := by decide
  have generated : rowsGenerator.generate rowsDefinitions = .ok _ := rfl
  refine ⟨(within "Rows" _).2 [0, 0] [1] rfl rfl (by decide), ?_, _, generated, ?_⟩
  · refine across _ ?_ distinct
    intro component isComponent
    obtain ⟨d, isDefinition, rfl⟩ := List.mem_map.1 isComponent
    exact alphanum d isDefinition
  · exact (common rowsGenerator _ _ alphanum distinct (by decide) generated).2

end ComponentGen
