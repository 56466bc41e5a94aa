import ComponentGen.Proofs.Generation.Paths
/-!
# Definitions of a run

What a run has generated once everything was read: the definitions it has loaded are named after the
stems of file names, so every path of its project names a file in the output folder. No such path is
that of a definition file, whatever the components are called.
-/

namespace ComponentGen

open FileTree (IsFileName WellFormed)

variable {tree : FileTree} {options : Options} {folder : String}

/-! ## Stems and extensions -/

theorem toList_stem_sublist (name : String) : (splitExtension name).1.toList.Sublist name.toList := by
  have dropped : (name.toList.reverse.dropWhile (· != '.')).reverse.Sublist name.toList := by
    rw [← List.reverse_sublist, List.reverse_reverse]
    exact List.dropWhile_sublist _
  rw [splitExtension]
  split
  · next c stem split =>
      rw [String.toList_ofList]
      rw [split, List.reverse_cons] at dropped
      exact (List.sublist_append_left _ _).trans dropped
  · exact List.Sublist.refl _

theorem splitExtension_append {stem : String} (nonempty : stem ≠ "") :
    splitExtension (stem ++ ".json") = (stem, some "json") := by
  have reversed : (stem ++ ".json").toList.reverse =
      ['n', 'o', 's', 'j'] ++ '.' :: stem.toList.reverse := by
    rw [String.toList_append, List.reverse_append]
    rfl
  obtain ⟨c, more, behind⟩ := List.exists_cons_of_ne_nil
    (mt List.reverse_eq_nil_iff.1 (mt String.toList_eq_nil_iff.1 nonempty))
  have dropped : (stem ++ ".json").toList.reverse.dropWhile (· != '.') = '.' :: c :: more := by
    rw [reversed, behind]
    rfl
  have taken : (stem ++ ".json").toList.reverse.takeWhile (· != '.') = ['n', 'o', 's', 'j'] := by
    rw [reversed]
    rfl
  rw [splitExtension]
  simp only [dropped, taken]
  rw [← behind, List.reverse_reverse, String.ofList_toList]
  rfl

/-- The definition files are named after a stem that is not empty. -/
theorem isDefinitionFile_iff {name : String} :
    isDefinitionFile name = true ↔ ∃ stem, stem ≠ "" ∧ name = stem ++ ".json" := by
  constructor
  · intro isDefinition
    rw [isDefinitionFile, beq_iff_eq, splitExtension] at isDefinition
    split at isDefinition
    · next c stem dropped =>
        have extension := congrArg String.toList (Option.some.inj isDefinition)
        rw [String.toList_ofList, List.reverse_eq_iff] at extension
        have split := List.takeWhile_append_dropWhile (p := (· != '.')) (l := name.toList.reverse)
        rw [extension, dropped, ← List.reverse_eq_iff] at split
        refine ⟨String.ofList (c :: stem).reverse, by simp, String.toList_inj.1 ?_⟩
        rw [String.toList_append, String.toList_ofList, ← split]
        simp
    · cases isDefinition
  · rintro ⟨stem, nonempty, rfl⟩
    rw [isDefinitionFile, splitExtension_append nonempty]
    rfl

theorem isDefinitionFile_append {extension : String} {c : Char}
    (last : extension.toList.getLast? = some c) (different : c ≠ 'n') (name : String) :
    isDefinitionFile (name ++ extension) = false := by
  rw [← Bool.not_eq_true]
  intro isDefinition
  obtain ⟨stem, -, same⟩ := isDefinitionFile_iff.1 isDefinition
  have ends := getLast?_append_extension last name
  rw [same, @getLast?_append_extension ".json" _ rfl stem] at ends
  exact different (Option.some.inj ends).symm

/-! ## Loaded definitions -/

/-- The names of the definition files in a folder. -/
def definitionNames (tree : FileTree) (folder : String) (place : Place) : List String :=
  ((tree.namesAt place).filter isDefinitionFile).filter fun name =>
    tree.isFile (joinPath folder name)

theorem definitionFiles_eq_ok_iff {names : List String} :
    definitionFiles tree folder = .ok names ↔
      ∃ place, tree.locate folder = .ok place ∧ tree.at? place = some .folder ∧
        names = (definitionNames tree folder place).mergeSort fun a b => decide (a ≤ b) := by
  rw [definitionFiles]
  constructor
  · intro listed
    obtain ⟨given, read, sorted⟩ := exists_of_bind_eq_ok listed
    obtain ⟨place, led, isFolder, rfl⟩ := FileTree.fileNames_eq_ok_iff.1 read
    refine ⟨place, led, isFolder, ?_⟩
    rw [definitionNames, List.filter_filter]
    exact (Except.ok.inj sorted).symm
  · rintro ⟨place, led, isFolder, rfl⟩
    rw [FileTree.fileNames_eq_ok_iff.2 ⟨place, led, isFolder, rfl⟩, definitionNames,
      List.filter_filter]
    rfl

theorem mem_definitionNames_iff {place : Place} {name : String} :
    name ∈ definitionNames tree folder place ↔
      ((∃ content, (place ++ [name], .file content) ∈ tree.entries) ∧
        isDefinitionFile name = true) ∧ tree.isFile (joinPath folder name) = true := by
  rw [definitionNames, List.mem_filter, List.mem_filter, FileTree.mem_namesAt_iff]

/-- The definition files of a run are files right inside the input folder. -/
theorem mem_definitionFiles {names : List String} {name : String}
    (listed : definitionFiles tree folder = .ok names) (member : name ∈ names) :
    isDefinitionFile name = true ∧ ∃ place content, tree.locate folder = .ok place ∧
      tree.at? place = some .folder ∧ (place ++ [name], .file content) ∈ tree.entries := by
  obtain ⟨place, led, isFolder, rfl⟩ := definitionFiles_eq_ok_iff.1 listed
  rw [List.mem_mergeSort, mem_definitionNames_iff] at member
  obtain ⟨⟨⟨content, held⟩, isDefinition⟩, -⟩ := member
  exact ⟨isDefinition, place, content, led, isFolder, held⟩

theorem loadDefinitions_eq_ok {keepGoing : Bool} {definitions : List Definition}
    (loaded : loadDefinitions tree folder keepGoing = .ok definitions) :
    ∃ names, definitionFiles tree folder = .ok names ∧
      readDefinitions tree folder keepGoing [] names = .ok definitions := by
  rw [loadDefinitions] at loaded
  split at loaded
  · cases loaded
  · next names listed => exact ⟨names, listed, loaded⟩

theorem name_of_readDefinition {name : String} {d : Definition}
    (read : readDefinition tree folder name = .ok d) :
    d.name = Naming.componentName (splitExtension name).1 := by
  rw [readDefinition] at read
  split at read
  · cases read
  · split at read
    · cases read
    · obtain rfl := Except.ok.inj read
      rfl

/-- A definition as an entry under its name. -/
def Definition.entry (d : Definition) : String × Definition :=
  (d.name, d)

theorem map_fst_entry (definitions : List Definition) :
    (definitions.map Definition.entry).map Prod.fst = definitions.map (·.name) := by
  rw [List.map_map]
  rfl

/-- Definitions are added to each other as the entries of an ordered map are set. -/
theorem map_entry_addDefinition (d : Definition) (done : List Definition) :
    (addDefinition d done).map Definition.entry =
      Entries.put d.name d (done.map Definition.entry) := by
  induction done with
  | nil => rfl
  | cons first rest ih =>
      rw [addDefinition, List.map_cons, Definition.entry, Entries.put]
      by_cases same : first.name = d.name
      · rw [if_pos same, if_pos same]
        rfl
      · rw [if_neg same, if_neg same, List.map_cons, ih]
        rfl

theorem map_name_addDefinition (d : Definition) (done : List Definition) :
    (addDefinition d done).map (·.name) =
      if d.name ∈ done.map (·.name) then done.map (·.name) else done.map (·.name) ++ [d.name] := by
  rw [← map_fst_entry, map_entry_addDefinition, Entries.keys_put, map_fst_entry]

open Generator (NamesFromStems)

theorem namesFromStems_addDefinition {stems : List String} {done : List Definition} {d : Definition}
    {stem : String} (names : NamesFromStems stems done) (named : d.name = Naming.componentName stem) :
    ∃ more, (∀ other ∈ more, other ∈ stems ∨ other = stem) ∧
      NamesFromStems more (addDefinition d done) := by
  by_cases known : d.name ∈ done.map (·.name)
  · refine ⟨stems, fun other member => .inl member, ?_, ?_⟩ <;>
      rw [map_name_addDefinition, if_pos known]
    · exact names.fromStems
    · exact names.distinct
  · refine ⟨stems ++ [stem], fun other member => by simpa using member, ?_, ?_⟩ <;>
      rw [map_name_addDefinition, if_neg known]
    · rw [names.fromStems, named, List.map_append]
      rfl
    · rw [← List.concat_eq_append, List.nodup_concat]
      exact ⟨known, names.distinct⟩

theorem readDefinitions_cons (tree : FileTree) (folder : String) (keepGoing : Bool)
    (done : List Definition) (name : String) (rest : List String) :
    readDefinitions tree folder keepGoing done (name :: rest) =
      match readDefinition tree folder name with
      | .ok d => readDefinitions tree folder keepGoing (addDefinition d done) rest
      | .error error =>
        if keepGoing then readDefinitions tree folder keepGoing done rest else .error error := rfl

theorem readDefinitions_congr {after : FileTree} {keepGoing : Bool} {done : List Definition}
    {names : List String}
    (same : ∀ name ∈ names, readDefinition after folder name = readDefinition tree folder name) :
    readDefinitions after folder keepGoing done names =
      readDefinitions tree folder keepGoing done names := by
  induction names generalizing done with
  | nil => rfl
  | cons name rest ih =>
      have sameRest : ∀ later ∈ rest,
          readDefinition after folder later = readDefinition tree folder later :=
        fun later member => same later (List.mem_cons_of_mem name member)
      rw [readDefinitions_cons, readDefinitions_cons, same name List.mem_cons_self]
      cases readDefinition tree folder name with
      | ok d => exact ih sameRest
      | error error =>
          simp only [ih sameRest]

/-- The definitions that are read are named after the stems of their files, each name once. -/
theorem namesFromStems_readDefinitions {keepGoing : Bool} {done definitions : List Definition}
    {stems names : List String} (before : NamesFromStems stems done)
    (read : readDefinitions tree folder keepGoing done names = .ok definitions) :
    ∃ more, (∀ stem ∈ more, stem ∈ stems ∨ ∃ name ∈ names, stem = (splitExtension name).1) ∧
      NamesFromStems more definitions := by
  induction names generalizing done stems with
  | nil =>
      obtain rfl := Except.ok.inj read
      exact ⟨stems, fun stem member => .inl member, before⟩
  | cons name rest ih =>
      rw [readDefinitions_cons] at read
      split at read
      · next d isRead =>
          obtain ⟨next, fromBoth, added⟩ :=
            namesFromStems_addDefinition before (name_of_readDefinition isRead)
          obtain ⟨more, fromAll, all⟩ := ih added read
          refine ⟨more, fun stem member => ?_, all⟩
          rcases fromAll stem member with earlier | ⟨other, inRest, isStem⟩
          · rcases fromBoth stem earlier with known | isStem
            · exact .inl known
            · exact .inr ⟨name, List.mem_cons_self, isStem⟩
          · exact .inr ⟨other, List.mem_cons_of_mem name inRest, isStem⟩
      · split at read
        · obtain ⟨more, fromAll, all⟩ := ih before read
          refine ⟨more, fun stem member => ?_, all⟩
          exact (fromAll stem member).imp_right fun ⟨other, inRest, isStem⟩ =>
            ⟨other, List.mem_cons_of_mem name inRest, isStem⟩
        · cases read

/-! ## Planned projects -/

/-- What a plan comes to: the interfaces and the definitions are read, and the project is generated
from them. -/
theorem plan_eq_ok_iff {project : Project} :
    plan options tree = .ok project ↔
      ∃ interfaces definitions, readInterfaces tree options.typesFile = .ok interfaces ∧
        loadDefinitions tree options.inputDir options.keepGoing = .ok definitions ∧
        ({ options, interfaces } : Generator).generate definitions = .ok project := by
  rw [plan]
  constructor
  · intro planned
    obtain ⟨g, loaded, onward⟩ := exists_of_bind_eq_ok planned
    obtain ⟨interfaces, read, rfl⟩ : ∃ interfaces, readInterfaces tree options.typesFile =
        .ok interfaces ∧ ({ options, interfaces } : Generator) = g := by
      obtain ⟨interfaces, read, made⟩ := exists_of_bind_eq_ok loaded
      exact ⟨interfaces, read, Except.ok.inj made⟩
    obtain ⟨definitions, isLoaded, generated⟩ := exists_of_bind_eq_ok onward
    refine ⟨interfaces, definitions, read, isLoaded, ?_⟩
    cases outcome : ({ options, interfaces } : Generator).generate definitions with
    | error error =>
        rw [outcome] at generated
        cases generated
    | ok given =>
        rw [outcome] at generated
        rw [Except.ok.inj generated]
  · rintro ⟨interfaces, definitions, read, loaded, generated⟩
    have isLoaded : Generator.load options tree = .ok { options, interfaces } := by
      rw [Generator.load, read]
      rfl
    have isDefined : Generator.definitions { options, interfaces } tree = .ok definitions := loaded
    rw [isLoaded]
    simp only [bind, Except.bind, isDefined, generated]
    rfl

/-- Every path of a planned project names a file in the output folder. -/
theorem isFileName_of_plan (wellFormed : tree.WellFormed) {project : Project}
    (planned : plan options tree = .ok project) : ∀ path ∈ project.paths, IsFileName path := by
  obtain ⟨interfaces, definitions, -, loaded, generated⟩ := plan_eq_ok_iff.1 planned
  obtain ⟨names, listed, read⟩ := loadDefinitions_eq_ok loaded
  have nothing : NamesFromStems [] [] := ⟨rfl, List.nodup_nil⟩
  obtain ⟨stems, fromNames, named⟩ := namesFromStems_readDefinitions nothing read
  intro path member
  refine Generator.isFileName_of_mem_paths named (fun stem isStem slash => ?_) generated member
  rcases fromNames stem isStem with none_here | ⟨name, isListed, rfl⟩
  · cases none_here
  · obtain ⟨-, place, content, -, -, held⟩ := mem_definitionFiles listed isListed
    exact (wellFormed.isFileName held).noSlash ((toList_stem_sublist name).subset slash)

/-- No path of a planned project is that of a definition file. -/
theorem not_isDefinitionFile_of_plan {project : Project} (planned : plan options tree = .ok project) :
    ∀ path ∈ project.paths, isDefinitionFile path = false := by
  obtain ⟨interfaces, definitions, -, -, generated⟩ := plan_eq_ok_iff.1 planned
  intro path member
  rcases Generator.paths_of_generate generated with ⟨-, none_here⟩ | paths
  · rw [none_here] at member
    cases member
  · rcases List.mem_append.1 (paths.subset member) with isModule | isSheet
    · obtain ⟨stem, -, rfl⟩ := List.mem_map.1 isModule
      exact isDefinitionFile_append (c := 'x') rfl (by decide) stem
    · obtain ⟨stem, -, rfl⟩ := List.mem_map.1 isSheet
      exact isDefinitionFile_append (c := 's') rfl (by decide) stem

end ComponentGen
