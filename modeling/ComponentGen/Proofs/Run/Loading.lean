import ComponentGen.Proofs.OrderedMap
import ComponentGen.Proofs.Run.Effects
import Mathlib.Data.List.Sort
/-!
# Loading definitions

The definitions of a run are loaded from the files of one folder, one after the other in the order of
their names. A file that holds no definition ends the loading, or is passed over. Passing over such
files is loading the others: it comes to what is loaded from the folder when they are taken out of it.

A definition takes the place of an earlier one of the same name. So the names stand in the order of
the first files that map to them, and each of them for what the last such file holds.
-/

namespace ComponentGen

open FileTree (IsFileName Keeps WellFormed)

variable {tree : FileTree} {folder name : String} {place : Place} {names : List String}

/-! ## Trees without some files -/

namespace FileTree

variable {places : List Place}

/-- The tree without whatever stands at some places. -/
def without (tree : FileTree) (places : List Place) : FileTree :=
  { tree with entries := tree.entries.filter fun entry => entry.1 ∉ places }

theorem lookup_filter_not_mem (entries : List (Place × Entry)) :
    (entries.filter fun entry => entry.1 ∉ places).lookup place =
      if place ∈ places then none else entries.lookup place := by
  induction entries with
  | nil => simp
  | cons first rest ih =>
      obtain ⟨other, entry⟩ := first
      by_cases removed : other ∈ places
      · rw [List.filter_cons_of_neg (by simpa using removed), ih, List.lookup_cons]
        by_cases same : place = other
        · rw [if_pos (same ▸ removed), if_pos (same ▸ removed)]
        · rw [beq_false_of_ne same]
      · rw [List.filter_cons_of_pos (by simpa using removed), List.lookup_cons, List.lookup_cons, ih]
        by_cases same : place = other
        · subst same
          simp [removed]
        · rw [beq_false_of_ne same]

/-- At a place that is not taken away stands what stood there. -/
theorem at?_without (inside : place ≠ []) :
    (tree.without places).at? place = if place ∈ places then none else tree.at? place := by
  rw [at?, at?, if_neg inside, if_neg inside]
  exact lookup_filter_not_mem tree.entries

/-- So does what stands in a folder under a name that is not among those that are taken away. -/
theorem at?_concat_without {faulty : List String} (fine : name ∉ faulty) :
    (tree.without (faulty.map fun name => place ++ [name])).at? (place ++ [name]) =
      tree.at? (place ++ [name]) := by
  rw [at?_without (concat_ne_nil place name), if_neg]
  rintro removed
  obtain ⟨other, isFaulty, same⟩ := List.mem_map.1 removed
  obtain rfl := List.singleton_inj.1 (List.append_cancel_left same)
  exact fine isFaulty

section

variable (notFolders : ∀ place ∈ places, tree.at? place ≠ some .folder)

include notFolders

/-- Taking files away leaves the folders. -/
theorem keeps_without : Keeps tree (tree.without places) where
  workingFolder := rfl
  folder {place} isFolder := by
    by_cases isRoot : place = []
    · rw [at?, if_pos isRoot]
    · rw [at?_without isRoot, if_neg fun removed => notFolders place removed isFolder]
      exact isFolder

theorem WellFormed.without (wellFormed : tree.WellFormed) : (tree.without places).WellFormed where
  named entry member := wellFormed.named entry (List.mem_of_mem_filter member)
  rooted entry member :=
    (keeps_without notFolders).folder (wellFormed.rooted entry (List.mem_of_mem_filter member))

end

theorem nodup_without (distinct : (tree.entries.map Prod.fst).Nodup) :
    ((tree.without places).entries.map Prod.fst).Nodup :=
  distinct.sublist (List.filter_sublist.map Prod.fst)

/-- Where every place occurs once, every file in a folder has another name. -/
theorem nodup_namesAt (distinct : (tree.entries.map Prod.fst).Nodup) (place : Place) :
    (tree.namesAt place).Nodup := by
  rw [namesAt, List.Nodup, List.pairwise_filterMap]
  refine (List.pairwise_map.1 distinct).imp ?_
  rintro ⟨first, entry⟩ ⟨second, other⟩ different name isFirst _ isSecond rfl
  cases entry with
  | folder => cases isFirst
  | file content =>
      cases other with
      | folder => cases isSecond
      | file content =>
          exact different
            ((nameIn?_eq_some_iff.1 isFirst).trans (nameIn?_eq_some_iff.1 isSecond).symm)

end FileTree

/-! ## The definition files of a folder -/

/-- The names are those of the definition files of a folder, in ascending order: of the files right
inside it whose names are a stem followed by the extension. -/
structure ListsDefinitions (tree : FileTree) (folder : String) (names : List String) : Prop where
  ascending : names.Pairwise (· < ·)
  mem_iff : ∀ name, name ∈ names ↔
    IsFileName name ∧ (∃ stem, stem ≠ "" ∧ name = stem ++ ".json") ∧
      tree.isFile (joinPath folder name) = true

/-- The definition files can be listed in one way only. -/
theorem ListsDefinitions.unique {others : List String} (first : ListsDefinitions tree folder names)
    (second : ListsDefinitions tree folder others) : names = others := by
  have irreflexive : Std.Irrefl fun a b : String => a < b := ⟨String.lt_irrefl⟩
  have antisymmetric : Std.Antisymm fun a b : String => a < b :=
    ⟨fun _ _ less greater => absurd greater (String.lt_asymm less)⟩
  exact first.ascending.eq_of_mem_iff second.ascending fun name =>
    (first.mem_iff name).trans (second.mem_iff name).symm

theorem ListsDefinitions.isDefinitionFile (listing : ListsDefinitions tree folder names)
    (member : name ∈ names) : isDefinitionFile name = true :=
  isDefinitionFile_iff.2 ((listing.mem_iff name).1 member).2.1

theorem pairwise_mergeSort_le (names : List String) :
    (names.mergeSort fun a b => decide (a ≤ b)).Pairwise (· ≤ ·) := by
  have sorted : (names.mergeSort fun a b => decide (a ≤ b)).Pairwise fun a b =>
      decide (a ≤ b) = true := by
    refine List.pairwise_mergeSort (fun a b c first second => ?_) (fun a b => ?_) names
    · rw [decide_eq_true_eq] at first second ⊢
      exact String.le_trans first second
    · rw [Bool.or_eq_true, decide_eq_true_eq, decide_eq_true_eq]
      exact String.le_total a b
  exact sorted.imp of_decide_eq_true

section

variable (wellFormed : tree.WellFormed) (distinct : (tree.entries.map Prod.fst).Nodup)
  (led : tree.locate folder = .ok place) (isFolder : tree.at? place = some .folder)

include wellFormed distinct led isFolder

/-- The files that are read are the definition files of the folder. -/
theorem exists_listsDefinitions :
    ∃ names, definitionFiles tree folder = .ok names ∧ ListsDefinitions tree folder names := by
  refine ⟨_, definitionFiles_eq_ok_iff.2 ⟨place, led, isFolder, rfl⟩, ?_, fun name => ?_⟩
  · have nodup : ((definitionNames tree folder place).mergeSort fun a b => decide (a ≤ b)).Nodup :=
      (List.mergeSort_perm _ _).nodup_iff.2
        (((FileTree.nodup_namesAt distinct place).filter _).filter _)
    have sorted := pairwise_mergeSort_le (definitionNames tree folder place)
    refine sorted.imp₂ (fun a b atMost different => ?_) nodup
    exact String.not_le.1 fun atLeast => different (String.le_antisymm atMost atLeast)
  · rw [List.mem_mergeSort, mem_definitionNames_iff, isDefinitionFile_iff]
    constructor
    · rintro ⟨⟨⟨content, held⟩, hasStem⟩, isFile⟩
      exact ⟨wellFormed.isFileName held, hasStem, isFile⟩
    · rintro ⟨isName, hasStem, isFile⟩
      obtain ⟨-, content, held⟩ := (FileTree.isFile_joinPath_iff isName
        (FileTree.folderPlace_of_locate led) isFolder).1 isFile
      exact ⟨⟨⟨content, FileTree.mem_entries_of_at? held⟩, hasStem⟩, isFile⟩

theorem listsDefinitions_of_listed (listed : definitionFiles tree folder = .ok names) :
    ListsDefinitions tree folder names := by
  obtain ⟨others, sameList, listing⟩ := exists_listsDefinitions wellFormed distinct led isFolder
  rw [listed] at sameList
  rw [Except.ok.inj sameList]
  exact listing

theorem definitionFiles_of_lists (listing : ListsDefinitions tree folder names) :
    definitionFiles tree folder = .ok names := by
  obtain ⟨others, listed, same⟩ := exists_listsDefinitions wellFormed distinct led isFolder
  rw [listed, same.unique listing]

end

/-! ## Files with and without definitions -/

/-- What comes of reading the definition file of a name: the error of a file that cannot be read or
holds no component tree, or else the definition of the component that the stem of the name maps to. -/
inductive Reads (tree : FileTree) (folder name : String) : Except RunError Definition → Prop where
  | unreadable {fault : Fault} :
    tree.readText (joinPath folder name) = .error fault →
      Reads tree folder name (.error (.unreadable (joinPath folder name) fault))
  | invalid {text : String} :
    tree.readText (joinPath folder name) = .ok text → Node.read? text = none →
      Reads tree folder name (.error (.invalidDefinition (joinPath folder name)))
  | definition {stem text : String} {node : Node} :
    name = stem ++ ".json" →
    tree.readText (joinPath folder name) = .ok text → Node.read? text = some node →
      Reads tree folder name (.ok ⟨Naming.componentName stem, joinPath folder name, node⟩)

theorem reads_readDefinition (isDefinition : isDefinitionFile name = true) :
    Reads tree folder name (readDefinition tree folder name) := by
  obtain ⟨stem, nonempty, rfl⟩ := isDefinitionFile_iff.1 isDefinition
  rw [readDefinition, splitExtension_append nonempty]
  split
  · next fault read => exact .unreadable read
  · next text read =>
      split
      · next none_there => exact .invalid read none_there
      · next node isTree => exact .definition rfl read isTree

theorem reads_iff (isDefinition : isDefinitionFile name = true)
    {result : Except RunError Definition} :
    Reads tree folder name result ↔ readDefinition tree folder name = result := by
  constructor
  · intro reads
    obtain ⟨stem, nonempty, rfl⟩ := isDefinitionFile_iff.1 isDefinition
    rw [readDefinition, splitExtension_append nonempty]
    cases reads with
    | unreadable read => simp only [read]
    | invalid read none_there => simp only [read, none_there]
    | definition isNamed read isTree =>
        obtain rfl := (String.append_left_inj ".json").1 isNamed
        simp only [read, isTree]
  · rintro rfl
    exact reads_readDefinition isDefinition

/-- The error of a file that holds no definition. -/
def loadFault? (tree : FileTree) (folder name : String) : Option RunError :=
  match readDefinition tree folder name with
  | .error error => some error
  | .ok _ => none

/-- The definition that a file holds. -/
def loadable? (tree : FileTree) (folder name : String) : Option Definition :=
  (readDefinition tree folder name).toOption

theorem loadFault?_eq_some_iff (isDefinition : isDefinitionFile name = true) {error : RunError} :
    loadFault? tree folder name = some error ↔ Reads tree folder name (.error error) := by
  rw [reads_iff isDefinition, loadFault?]
  cases readDefinition tree folder name <;> simp

theorem loadFault?_eq_none_iff (isDefinition : isDefinitionFile name = true) :
    loadFault? tree folder name = none ↔ ∃ d, Reads tree folder name (.ok d) := by
  simp only [reads_iff isDefinition, loadFault?]
  cases readDefinition tree folder name <;> simp

/-- Reading goes on to the first fault, if it does not keep going, and each definition on the way is
added to those before. -/
theorem readDefinitions_eq (keepGoing : Bool) (done : List Definition) :
    readDefinitions tree folder keepGoing done names =
      outcome (if keepGoing then none else names.findSome? (loadFault? tree folder))
        ((names.filterMap (loadable? tree folder)).foldl (fun done d => addDefinition d done)
          done) := by
  induction names generalizing done with
  | nil => cases keepGoing <;> rfl
  | cons name rest ih =>
      rw [readDefinitions_cons, List.findSome?_cons, List.filterMap_cons, loadFault?, loadable?]
      cases readDefinition tree folder name with
      | ok d => exact ih (addDefinition d done)
      | error error =>
          cases keepGoing with
          | true => exact ih done
          | false => rfl

/-- The definitions of those files that hold one, in the order of the files. -/
inductive Loads (tree : FileTree) (folder : String) : List String → List Definition → Prop where
  | nil : Loads tree folder [] []
  | loaded {name : String} {d : Definition} {names : List String} {loaded : List Definition} :
    Reads tree folder name (.ok d) → Loads tree folder names loaded →
      Loads tree folder (name :: names) (d :: loaded)
  | faulty {name : String} {error : RunError} {names : List String} {loaded : List Definition} :
    Reads tree folder name (.error error) → Loads tree folder names loaded →
      Loads tree folder (name :: names) loaded

theorem loads_filterMap (definitionNames : ∀ name ∈ names, isDefinitionFile name = true) :
    Loads tree folder names (names.filterMap (loadable? tree folder)) := by
  induction names with
  | nil => exact .nil
  | cons name rest ih =>
      have others := ih fun other member => definitionNames other (List.mem_cons_of_mem name member)
      have reads : Reads tree folder name (readDefinition tree folder name) :=
        reads_readDefinition (definitionNames name List.mem_cons_self)
      rw [List.filterMap_cons, loadable?]
      cases result : readDefinition tree folder name with
      | error error => exact .faulty (result ▸ reads) others
      | ok d => exact .loaded (result ▸ reads) others

/-! ## Definitions of one name -/

/-- Of the definitions that are loaded one after the other each name is kept once: in the order of
their first definitions, and with the last one. -/
structure KeepsLast (loaded kept : List Definition) : Prop where
  distinct : (kept.map (·.name)).Nodup
  order : kept.map (·.name) = (loaded.map (·.name)).eraseDups
  last : ∀ d ∈ kept, ∃ front back, loaded = front ++ d :: back ∧
    ∀ later ∈ back, later.name ≠ d.name

theorem map_entry_foldl_addDefinition (loaded done : List Definition) :
    (loaded.foldl (fun done d => addDefinition d done) done).map Definition.entry =
      Entries.putAll (done.map Definition.entry) (loaded.map Definition.entry) := by
  induction loaded generalizing done with
  | nil => rfl
  | cons d rest ih =>
      rw [List.foldl_cons, ih, map_entry_addDefinition]
      rfl

theorem keepsLast_foldl_addDefinition (loaded : List Definition) :
    KeepsLast loaded (loaded.foldl (fun done d => addDefinition d done) []) := by
  have entries : (loaded.foldl (fun done d => addDefinition d done) []).map Definition.entry =
      (OrderedMap.ofList (loaded.map Definition.entry)).entries :=
    map_entry_foldl_addDefinition loaded []
  refine ⟨?_, ?_, fun d member => ?_⟩
  · rw [← map_fst_entry, entries]
    exact OrderedMap.nodup_keys _
  · rw [← map_fst_entry, entries, ← map_fst_entry]
    exact OrderedMap.keys_ofList _
  · have held := List.mem_map_of_mem (f := Definition.entry) member
    rw [entries] at held
    obtain ⟨first, others, split, later⟩ := OrderedMap.exists_last_of_mem_ofList held
    obtain ⟨front, tail, rfl, -, isTail⟩ := List.map_eq_append_iff.1 split
    obtain ⟨d', back, rfl, same, rfl⟩ := List.map_eq_cons_iff.1 isTail
    obtain rfl : d' = d := congrArg Prod.snd same
    refine ⟨front, back, rfl, fun other isLater sameName => later ?_⟩
    rw [map_fst_entry]
    exact List.mem_map.2 ⟨other, isLater, sameName⟩

/-! ## Loading -/

/-- What is loaded from the definition files of a folder. -/
theorem loadDefinitions_of_listed (listed : definitionFiles tree folder = .ok names)
    (keepGoing : Bool) :
    loadDefinitions tree folder keepGoing =
      outcome (if keepGoing then none else names.findSome? (loadFault? tree folder))
        ((names.filterMap (loadable? tree folder)).foldl (fun done d => addDefinition d done)
          []) := by
  rw [loadDefinitions, listed]
  exact readDefinitions_eq keepGoing []

/-- Among the files are some that hold no definition, and the error is that of the first of them. -/
def FirstFault (tree : FileTree) (folder : String) (names : List String) (error : RunError) : Prop :=
  ∃ before name after, names = before ++ name :: after ∧
    (∀ other ∈ before, ∃ d, Reads tree folder other (.ok d)) ∧ Reads tree folder name (.error error)

section

variable (listing : ListsDefinitions tree folder names)

include listing

theorem firstFault_iff {error : RunError} :
    FirstFault tree folder names error ↔
      names.findSome? (loadFault? tree folder) = some error := by
  rw [FirstFault, List.findSome?_eq_some_iff]
  refine exists_congr fun before => exists_congr fun name => exists_congr fun after =>
    and_congr_right fun split => ?_
  subst split
  rw [and_comm]
  refine and_congr ?_ ?_
  · exact (loadFault?_eq_some_iff (listing.isDefinitionFile (by simp))).symm
  · exact forall₂_congr fun other member =>
      (loadFault?_eq_none_iff (listing.isDefinitionFile (List.mem_append_left _ member))).symm

theorem exists_firstFault_iff :
    (∃ error, FirstFault tree folder names error) ↔
      ∃ name ∈ names, ∃ error, Reads tree folder name (.error error) := by
  simp only [firstFault_iff listing]
  rw [← Option.isSome_iff_exists, List.findSome?_isSome_iff]
  refine exists_congr fun name => and_congr_right fun member => ?_
  rw [Option.isSome_iff_exists]
  exact exists_congr fun error => loadFault?_eq_some_iff (listing.isDefinitionFile member)

variable (led : tree.locate folder = .ok place) (isFolder : tree.at? place = some .folder)

include led isFolder

theorem notFolder_of_mem_listed {faulty : List String} (listed : ∀ name ∈ faulty, name ∈ names) :
    ∀ other ∈ faulty.map fun name => place ++ [name], tree.at? other ≠ some .folder := by
  intro other member
  obtain ⟨name, isFaulty, rfl⟩ := List.mem_map.1 member
  obtain ⟨isName, -, isFile⟩ := (listing.mem_iff name).1 (listed name isFaulty)
  obtain ⟨-, content, held⟩ := (FileTree.isFile_joinPath_iff isName
    (FileTree.folderPlace_of_locate led) isFolder).1 isFile
  rw [held]
  simp

/-- Some of the definition files taken away, the others are the definition files. -/
theorem ListsDefinitions.without {faulty : List String} (listed : ∀ name ∈ faulty, name ∈ names) :
    ListsDefinitions (tree.without (faulty.map fun name => place ++ [name])) folder
      (names.filter (· ∉ faulty)) := by
  have kept := FileTree.keeps_without (notFolder_of_mem_listed listing led isFolder listed)
  have folderLed := FileTree.folderPlace_of_locate led
  refine ⟨listing.ascending.filter _, fun name => ?_⟩
  rw [List.mem_filter, decide_eq_true_eq, listing.mem_iff]
  constructor
  · rintro ⟨⟨isName, hasStem, isFile⟩, fine⟩
    refine ⟨isName, hasStem, ?_⟩
    rw [kept.isFile_joinPath isName folderLed isFolder (FileTree.at?_concat_without fine)]
    exact isFile
  · rintro ⟨isName, hasStem, isFile⟩
    have fine : name ∉ faulty := by
      intro isFaulty
      obtain ⟨-, content, held⟩ := (FileTree.isFile_joinPath_iff isName
        (kept.folderPlace folderLed) (kept.folder isFolder)).1 isFile
      rw [FileTree.at?_without (FileTree.concat_ne_nil place name),
        if_pos (List.mem_map_of_mem isFaulty)] at held
      cases held
    rw [kept.isFile_joinPath isName folderLed isFolder (FileTree.at?_concat_without fine)] at isFile
    exact ⟨⟨isName, hasStem, isFile⟩, fine⟩

end

/-- A definition file that stays is read as before. -/
theorem readDefinition_without {faulty : List String} (isName : IsFileName name)
    (led : tree.locate folder = .ok place) (isFolder : tree.at? place = some .folder)
    (kept : Keeps tree (tree.without (faulty.map fun name => place ++ [name])))
    (fine : name ∉ faulty) :
    readDefinition (tree.without (faulty.map fun name => place ++ [name])) folder name =
      readDefinition tree folder name := by
  rw [readDefinition, readDefinition, kept.readText_joinPath isName
    (FileTree.folderPlace_of_locate led) isFolder (FileTree.at?_concat_without fine)]

/-- The definition files that hold no definition. -/
def faultyNames (tree : FileTree) (folder : String) (names : List String) : List String :=
  names.filter fun name => (loadFault? tree folder name).isSome

theorem mem_faultyNames_iff (listing : ListsDefinitions tree folder names) :
    name ∈ faultyNames tree folder names ↔
      name ∈ names ∧ ∃ error, Reads tree folder name (.error error) := by
  rw [faultyNames, List.mem_filter, Option.isSome_iff_exists]
  exact and_congr_right fun member => exists_congr fun error =>
    loadFault?_eq_some_iff (listing.isDefinitionFile member)

/-- What the other files hold is all that is loaded. -/
theorem readDefinitions_filter_faultyNames (done : List Definition) :
    readDefinitions tree folder false done (names.filter (· ∉ faultyNames tree folder names)) =
      .ok ((names.filterMap (loadable? tree folder)).foldl (fun done d => addDefinition d done)
        done) := by
  have fine : ∀ name ∈ names.filter (· ∉ faultyNames tree folder names),
      loadFault? tree folder name = none := by
    intro name member
    rw [List.mem_filter, decide_eq_true_eq, faultyNames, List.mem_filter, not_and,
      Option.not_isSome_iff_eq_none] at member
    exact member.2 member.1
  have same : (names.filter (· ∉ faultyNames tree folder names)).filterMap (loadable? tree folder) =
      names.filterMap (loadable? tree folder) := by
    rw [List.filterMap_filter]
    refine List.filterMap_congr fun name member => ?_
    split
    · rfl
    · next isFaulty =>
        rw [decide_eq_true_eq, not_not, faultyNames, List.mem_filter, loadFault?] at isFaulty
        rw [loadable?]
        cases result : readDefinition tree folder name with
        | error error => rfl
        | ok d => simp [result] at isFaulty
  rw [readDefinitions_eq, if_neg Bool.false_ne_true, List.findSome?_eq_none_iff.2 fine, same]
  rfl

section

variable (wellFormed : tree.WellFormed) (distinct : (tree.entries.map Prod.fst).Nodup)
  (led : tree.locate folder = .ok place) (isFolder : tree.at? place = some .folder)

include wellFormed distinct led isFolder

/-- Passing over files is loading what is left when they are taken away. -/
theorem loadDefinitions_without (listing : ListsDefinitions tree folder names) :
    loadDefinitions
        (tree.without ((faultyNames tree folder names).map fun name => place ++ [name])) folder false =
      loadDefinitions tree folder true := by
  have listed : ∀ name ∈ faultyNames tree folder names, name ∈ names :=
    fun name isFaulty => List.mem_of_mem_filter isFaulty
  have notFolders := notFolder_of_mem_listed listing led isFolder listed
  have kept := FileTree.keeps_without notFolders
  have others := definitionFiles_of_lists (wellFormed.without notFolders)
    (FileTree.nodup_without distinct) (kept.locate led) (kept.folder isFolder)
    (listing.without led isFolder listed)
  have all := definitionFiles_of_lists wellFormed distinct led isFolder listing
  rw [loadDefinitions_of_listed all, loadDefinitions, others]
  refine (readDefinitions_congr fun name member => ?_).trans (readDefinitions_filter_faultyNames [])
  rw [List.mem_filter, decide_eq_true_eq] at member
  exact readDefinition_without ((listing.mem_iff name).1 member.1).1 led isFolder kept member.2

/-- In a tree as file systems have it, where every place occurs once: of the definition files of a
folder, the loading fails on the first one that holds no definition, unless it keeps going. Then it
fails on none of them, and what it loads is what is loaded from the folder when those files are taken
out of it. Whatever is loaded holds each name once, in the order of the first files that map to them
and with the definition of the last one. -/
theorem keepGoing_loads_faultless_files :
    ∃ names, ListsDefinitions tree folder names ∧
      ((∃ error, loadDefinitions tree folder false = .error error) ↔
        ∃ name ∈ names, ∃ error, Reads tree folder name (.error error)) ∧
      (∀ error, loadDefinitions tree folder false = .error error ↔
        FirstFault tree folder names error) ∧
      (∃ (faulty : List String) (definitions : List Definition),
        (∀ name, name ∈ faulty ↔
          name ∈ names ∧ ∃ error, Reads tree folder name (.error error)) ∧
        loadDefinitions tree folder true = .ok definitions ∧
        loadDefinitions (tree.without (faulty.map fun name => place ++ [name])) folder false =
          .ok definitions) ∧
      ∀ keepGoing definitions, loadDefinitions tree folder keepGoing = .ok definitions →
        ∃ loaded, Loads tree folder names loaded ∧ KeepsLast loaded definitions := by
  obtain ⟨names, listed, listing⟩ := exists_listsDefinitions wellFormed distinct led isFolder
  have result := loadDefinitions_of_listed listed
  have firstFault (error : RunError) : loadDefinitions tree folder false = .error error ↔
      FirstFault tree folder names error := by
    rw [result, if_neg Bool.false_ne_true, outcome_eq_error_iff, firstFault_iff listing]
  refine ⟨names, listing, ?_, firstFault, ?_, ?_⟩
  · rw [← exists_firstFault_iff listing]
    exact exists_congr firstFault
  · have loaded := result true
    exact ⟨faultyNames tree folder names, _, fun name => mem_faultyNames_iff listing, loaded,
      (loadDefinitions_without wellFormed distinct led isFolder listing).trans loaded⟩
  · intro keepGoing definitions loaded
    rw [result, outcome_eq_ok_iff] at loaded
    obtain ⟨-, rfl⟩ := loaded
    exact ⟨_, loads_filterMap fun name => listing.isDefinitionFile,
      keepsLast_foldl_addDefinition _⟩

end

/-- A tree with a file that is no definition between two that map to one name. -/
def heroTree : FileTree where
  entries := [(["components"], .folder),
    (["components", "hero-section.json"], .file (.text "\x7b\"type\":\"Text\"\x7d")),
    (["components", "hero.json"], .file (.text "\x7b not json")),
    (["components", "hero_section.json"], .file (.text "\x7b\"type\":\"Text\"\x7d")),
    (["components", "notes.txt"], .file (.text "ignored"))]

theorem definitionFiles_heroTree : definitionFiles heroTree "components" =
    .ok ["hero-section.json", "hero.json", "hero_section.json"] := by
  have names : definitionNames heroTree "components" ["components"] =
      ["hero-section.json", "hero.json", "hero_section.json"] := rfl
  refine definitionFiles_eq_ok_iff.2 ⟨["components"], rfl, rfl, ?_⟩
  rw [names, List.mergeSort_of_pairwise (by decide)]

theorem reads_heroTree :
    Reads heroTree "components" "hero-section.json"
        (.ok ⟨"HeroSection", "components/hero-section.json", { type := "Text" }⟩) ∧
      Reads heroTree "components" "hero.json" (.error (.invalidDefinition "components/hero.json")) ∧
      Reads heroTree "components" "hero_section.json"
        (.ok ⟨"HeroSection", "components/hero_section.json", { type := "Text" }⟩) :=
  ⟨@Reads.definition _ _ _ "hero-section" _ _ rfl rfl read?_textNode, .invalid rfl rfl,
    @Reads.definition _ _ _ "hero_section" _ _ rfl rfl read?_textNode⟩

/-- The later file of the two stands for the name. -/
theorem loadDefinitions_heroTree : loadDefinitions heroTree "components" true =
    .ok [⟨"HeroSection", "components/hero_section.json", { type := "Text" }⟩] := by
  obtain ⟨first, malformed, last⟩ := reads_heroTree
  rw [loadDefinitions, definitionFiles_heroTree]
  simp only [readDefinitions_cons, (reads_iff rfl).1 first, (reads_iff rfl).1 malformed,
    (reads_iff rfl).1 last]
  rfl

theorem keepGoing_loads_faultless_files_heroTree :
    heroTree.WellFormed ∧ (heroTree.entries.map Prod.fst).Nodup ∧
    loadDefinitions heroTree "components" false =
      .error (.invalidDefinition "components/hero.json") ∧
    ∃ faulty : List String, "hero.json" ∈ faulty ∧
      loadDefinitions (heroTree.without (faulty.map fun name => ["components"] ++ [name]))
          "components" false =
        .ok [⟨"HeroSection", "components/hero_section.json", { type := "Text" }⟩] := by
  have wellFormed : heroTree.WellFormed := by decide
  have distinct : (heroTree.entries.map Prod.fst).Nodup := by decide
  have led : heroTree.locate "components" = .ok ["components"] := rfl
  obtain ⟨names, listing, -, firstFault, ⟨faulty, definitions, isFaulty, passed, without⟩, -⟩ :=
    keepGoing_loads_faultless_files wellFormed distinct led rfl
  obtain rfl := listing.unique
    (listsDefinitions_of_listed wellFormed distinct led rfl definitionFiles_heroTree)
  obtain rfl := Except.ok.inj (passed.symm.trans loadDefinitions_heroTree)
  obtain ⟨first, malformed, -⟩ := reads_heroTree
  refine ⟨wellFormed, distinct, (firstFault _).2 ⟨["hero-section.json"], "hero.json", _, rfl, ?_,
    malformed⟩, faulty, (isFaulty _).2 ⟨by decide, _, malformed⟩, without⟩
  intro other member
  rw [List.mem_singleton.1 member]
  exact ⟨_, first⟩

end ComponentGen
