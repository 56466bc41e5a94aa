import ComponentGen.Proofs.Run.Effects
/-!
# Running again

A run after a successful one reads the same definitions, even when its output folder is its input
folder or lies inside it: no generated file is a definition file. It reads the same interfaces too
if the file that declares them is not among what the first run has made. Then it plans the same
project, finds all folders in place, and writes every file with the content it has.

A path may lead nowhere before a run and somewhere after it, because it passes through a folder that
the run has made. Going back out of that folder, the path can reach a file that was there all along.
-/

namespace ComponentGen

open FileTree (IsFileName Keeps WellFormed step pathSegments)

variable {tree mid after : FileTree} {options : Options} {project : Project} {place : Place}

/-! ## The same files in a folder -/

namespace FileTree

/-- New folders are no files. -/
theorem AddsFolders.namesAt_eq (adds : AddsFolders tree mid) (place : Place) :
    mid.namesAt place = tree.namesAt place := by
  induction adds with
  | refl => rfl
  | @put tree mid added free _ ih =>
      rw [ih]
      exact Entries.filterMap_put rfl fun held member => absurd free (at?_ne_none_of_mem member)

/-- Files that are put somewhere do not change which of the other files there are. -/
theorem filter_namesAt_putFiles {isOther : String → Bool} {dir : Place} {files : List GeneratedFile}
    (none_other : ∀ file ∈ files, isOther file.path = false) :
    ((tree.putFiles dir files).namesAt place).filter isOther =
      (tree.namesAt place).filter isOther := by
  induction files generalizing tree with
  | nil => rfl
  | cons file rest ih =>
      rw [putFiles_cons, ih fun later member => none_other later (List.mem_cons_of_mem file member),
        namesAt, namesAt, List.filter_filterMap, List.filter_filterMap]
      have hidden (content : Content) :
          (nameIn? place (dir ++ [file.path])).filter isOther = none := by
        cases named : nameIn? place (dir ++ [file.path]) with
        | none => rfl
        | some name =>
            have same := List.append_inj' (nameIn?_eq_some_iff.1 named) rfl
            rw [Option.filter_some, ← List.singleton_inj.1 same.2,
              none_other file List.mem_cons_self]
            rfl
      refine Entries.filterMap_put (hidden (.text file.content)) fun held _ => ?_
      cases held with
      | folder => rfl
      | file content => exact hidden content

end FileTree

/-! ## The same definitions -/

section

variable (wellFormed : tree.WellFormed) (done : run options tree = (after, .ok project))

include wellFormed done

/-- What stands at the place of a definition file stays. -/
theorem at?_definitionFile_run {name : String} {dir : Place}
    (isDefinition : isDefinitionFile name = true) {content : Content}
    (held : (dir ++ [name], .file content) ∈ tree.entries) :
    after.at? (dir ++ [name]) = tree.at? (dir ++ [name]) := by
  refine (at?_run_cases wellFormed done fun path isPath written => ?_).resolve_right ?_
  · -- A generated file in this place would be a definition file.
    have planned := (run_eq_ok_iff.1 done).1
    obtain ⟨_, -, -, places⟩ :=
      FileTree.exists_folder_of_locate (isFileName_of_plan wellFormed planned path isPath) written
    have samePath := List.singleton_inj.1 (List.append_inj' places rfl).2
    have notDefinition := not_isDefinitionFile_of_plan planned path isPath
    rw [← samePath, isDefinition] at notDefinition
    cases notDefinition
  · rintro ⟨nothing, -⟩
    exact FileTree.at?_ne_none_of_mem held nothing

theorem definitionFiles_run {folder : String} {names : List String}
    (listed : definitionFiles tree folder = .ok names) : definitionFiles after folder = .ok names := by
  obtain ⟨place, led, isFolder, rfl⟩ := definitionFiles_eq_ok_iff.1 listed
  have kept := keeps_of_run done
  have noDefinition : ∀ file ∈ project.files, isDefinitionFile file.path = false :=
    fun file member => not_isDefinitionFile_of_plan (run_eq_ok_iff.1 done).1 file.path
      (List.mem_map_of_mem member)
  have sameNames : (after.namesAt place).filter isDefinitionFile =
      (tree.namesAt place).filter isDefinitionFile := by
    obtain ⟨mid, dir, created, -, rfl⟩ := exists_of_run wellFormed done
    rw [FileTree.filter_namesAt_putFiles noDefinition,
      (FileTree.createFolders_adds created).namesAt_eq]
  refine definitionFiles_eq_ok_iff.2 ⟨place, kept.locate led, kept.folder isFolder, ?_⟩
  rw [definitionNames, definitionNames, sameNames]
  refine congrArg (List.mergeSort · _) (List.filter_congr fun name member => ?_)
  obtain ⟨held, isDefinition⟩ := List.mem_filter.1 member
  obtain ⟨content, held⟩ := FileTree.mem_namesAt_iff.1 held
  exact (kept.isFile_joinPath (wellFormed.isFileName held) (FileTree.folderPlace_of_locate led)
    isFolder (at?_definitionFile_run wellFormed done isDefinition held)).symm

/-- A definition file reads the same after a run. -/
theorem readText_run {folder name : String} {names : List String}
    (listed : definitionFiles tree folder = .ok names) (member : name ∈ names) :
    after.readText (joinPath folder name) = tree.readText (joinPath folder name) := by
  obtain ⟨isDefinition, place, content, led, isFolder, held⟩ := mem_definitionFiles listed member
  exact (keeps_of_run done).readText_joinPath (wellFormed.isFileName held)
    (FileTree.folderPlace_of_locate led) isFolder
    (at?_definitionFile_run wellFormed done isDefinition held)

theorem loadDefinitions_run {folder : String} {keepGoing : Bool} {definitions : List Definition}
    (loaded : loadDefinitions tree folder keepGoing = .ok definitions) :
    loadDefinitions after folder keepGoing = .ok definitions := by
  obtain ⟨names, listed, read⟩ := loadDefinitions_eq_ok loaded
  have same : ∀ name ∈ names, readDefinition after folder name = readDefinition tree folder name := by
    intro name member
    rw [readDefinition, readDefinition, readText_run wellFormed done listed member]
  rw [loadDefinitions, definitionFiles_run wellFormed done listed]
  exact (readDefinitions_congr same).trans read

end

/-! ## The same interfaces -/

/-- The path spells neither a file of the project nor anything below one, nor a folder that has been
created. -/
structure SpellsOther (tree after : FileTree) (folder : String) (project : Project) (path : String) :
    Prop where
  notWritten : ∀ file ∈ project.paths,
    ¬ tree.spelled (joinPath folder file) <+: tree.spelled path
  notCreated : ¬ (tree.at? (tree.spelled path) = none ∧
    after.at? (tree.spelled path) = some .folder)

/-- From anything that is new, the path goes on with a name that is not too long, and never goes
back. -/
def GoesOnward (tree after : FileTree) (path : String) : Prop :=
  ∀ before segment rest, pathSegments path = before ++ segment :: rest →
    tree.at? (before.foldl step (tree.start path)) = none →
    after.at? (before.foldl step (tree.start path)) ≠ none →
    ".." ∉ segment :: rest ∧ segment.utf8ByteSize ≤ FileTree.nameLimit

namespace FileTree

theorem walk_of_none {segment : String} (nothing : tree.at? place = none) :
    tree.walk place segment = .error .notFound := by
  rw [walk, nothing]

/-- Where a path ends in nothing, some of its segments lead there. -/
theorem exists_of_follow_notFound {segments : List String}
    (lost : tree.follow place segments = .error .notFound) :
    ∃ before segment rest, segments = before ++ segment :: rest ∧
      ∃ found, tree.follow place before = .ok found ∧ tree.at? found = none := by
  induction segments generalizing place with
  | nil => cases lost
  | cons segment rest ih =>
      rw [follow_cons] at lost
      rcases bind_eq_error_cases lost with stuck | ⟨onward, walked, later⟩
      · refine ⟨[], segment, rest, rfl, place, rfl, ?_⟩
        rw [walk] at stuck
        split at stuck
        · assumption
        · cases stuck
        · -- In a folder a segment leads somewhere or is too long.
          split at stuck
          · cases stuck
          · split at stuck
            · cases stuck
            · split at stuck <;> cases stuck
      · obtain ⟨before, other, after, rfl, found, led, nothing⟩ := ih later
        refine ⟨segment :: before, other, after, rfl, found, ?_, nothing⟩
        rw [follow_cons, walked]
        exact led

theorem at?_of_textAt_notFound (missing : tree.textAt place = .error .notFound) :
    tree.at? place = none := by
  rw [textAt] at missing
  split at missing
  · assumption
  · cases missing
  · cases missing
  · cases missing

/-- Where nothing is found behind some segments, there is nothing already where some of them lead. -/
theorem exists_of_missing {segments : List String}
    (missing : tree.follow place segments >>= tree.textAt = .error .notFound) :
    ∃ before rest, segments = before ++ rest ∧
      ∃ found, tree.follow place before = .ok found ∧ tree.at? found = none := by
  rcases bind_eq_error_cases missing with lost | ⟨found, led, nothing⟩
  · obtain ⟨before, segment, rest, whole, reached⟩ := exists_of_follow_notFound lost
    exact ⟨before, segment :: rest, whole, reached⟩
  · exact ⟨segments, [], (List.append_nil segments).symm, found, led, at?_of_textAt_notFound nothing⟩

/-- Going on without ever going back leads below where one started. -/
theorem prefix_foldl_step {segments : List String} (onward : ".." ∉ segments) :
    place <+: segments.foldl step place := by
  induction segments generalizing place with
  | nil => exact List.prefix_rfl
  | cons segment rest ih =>
      rw [List.mem_cons, not_or] at onward
      refine List.IsPrefix.trans ?_ (ih onward.2)
      rw [step]
      split
      · exact List.prefix_rfl
      · rw [if_neg (Ne.symm onward.1)]
        exact List.prefix_append place [segment]

end FileTree

section

variable (wellFormed : tree.WellFormed) (done : run options tree = (after, .ok project))
  {path : String} (other : SpellsOther tree after options.outputDir project path)

include wellFormed done other

/-- What a path spells was not written if no written file is above it. -/
theorem at?_run_of_spellsOther (below : place <+: tree.spelled path) :
    after.at? place = tree.at? place ∨ tree.at? place = none ∧ after.at? place = some .folder := by
  refine at?_run_cases wellFormed done fun file isFile led => other.notWritten file isFile ?_
  have spelled := FileTree.eq_spelled_of_locate led
  rw [FileTree.spelled, (keeps_of_run done).start] at spelled
  rw [FileTree.spelled, ← spelled]
  exact below

/-- A path that leads nowhere from some place on leads nowhere after a run either. -/
theorem lost_after_run (onward : GoesOnward tree after path) {before rest : List String}
    (whole : pathSegments path = before ++ rest)
    (nothing : tree.at? (before.foldl step (tree.start path)) = none) :
    after.follow (before.foldl step (tree.start path)) rest >>= after.textAt =
      .error .notFound := by
  induction rest generalizing before with
  | nil =>
      have spelled : before.foldl step (tree.start path) = tree.spelled path := by
        rw [FileTree.spelled, whole, List.append_nil]
      rw [spelled] at nothing ⊢
      have nothingStill : after.at? (tree.spelled path) = none := by
        rcases at?_run_of_spellsOther wellFormed done other List.prefix_rfl with same | created
        · rw [same, nothing]
        · exact absurd created other.notCreated
      rw [FileTree.follow_nil]
      simp only [bind, Except.bind, FileTree.textAt, nothingStill]
  | cons segment rest ih =>
      cases found : after.at? (before.foldl step (tree.start path)) with
      | none =>
          rw [FileTree.follow_cons, FileTree.walk_of_none found]
          rfl
      | some entry =>
          obtain ⟨noDots, short⟩ := onward before segment rest whole nothing (by simp [found])
          have below : before.foldl step (tree.start path) <+: tree.spelled path := by
            rw [FileTree.spelled, whole, List.foldl_append]
            exact FileTree.prefix_foldl_step noDots
          have isFolder : after.at? (before.foldl step (tree.start path)) = some .folder := by
            rcases at?_run_of_spellsOther wellFormed done other below with same | created
            · rw [same, nothing] at found
              cases found
            · exact created.2
          have nextWhole : pathSegments path = (before ++ [segment]) ++ rest := by
            rw [whole, List.append_assoc, List.singleton_append]
          rw [List.mem_cons, not_or] at noDots
          have nextNothing : tree.at? (step (before.foldl step (tree.start path)) segment) = none := by
            rw [step]
            split
            · exact nothing
            · rw [if_neg (Ne.symm noDots.1)]
              exact wellFormed.at?_concat_eq_none (by simp [nothing]) segment
          have walked : after.walk (before.foldl step (tree.start path)) segment =
              .ok (step (before.foldl step (tree.start path)) segment) := by
            rw [FileTree.walk, isFolder, step]
            simp only [if_neg (Ne.symm noDots.1), if_neg (Nat.not_lt.2 short)]
            split <;> rfl
          have nextPlace : step (before.foldl step (tree.start path)) segment =
              (before ++ [segment]).foldl step (tree.start path) := by
            rw [List.foldl_append]
            rfl
          rw [FileTree.follow_cons, walked]
          rw [nextPlace] at nextNothing ⊢
          exact ih nextWhole nextNothing

/-- A file that is not among what a run has made is read or missing as before. -/
theorem readInterfaces_run (onward : GoesOnward tree after path) {interfaces : InterfaceTable}
    (read : readInterfaces tree path = .ok interfaces) :
    readInterfaces after path = .ok interfaces := by
  have kept := keeps_of_run done
  rw [readInterfaces] at read ⊢
  split at read
  · next source text =>
      rw [FileTree.readText_eq] at text
      obtain ⟨place, led, held⟩ := exists_of_bind_eq_ok text
      have isFile := FileTree.at?_of_textAt held
      obtain rfl := FileTree.eq_spelled_of_locate led
      have same : after.at? (tree.spelled path) = tree.at? (tree.spelled path) := by
        refine (at?_run_of_spellsOther wellFormed done other List.prefix_rfl).resolve_right ?_
        rintro ⟨nothing, -⟩
        rw [isFile] at nothing
        cases nothing
      rw [FileTree.readText_of_locate (kept.locate led), FileTree.textAt_congr same, held]
      exact read
  · next missing =>
      have missingStill : after.readText path = .error .notFound := by
        by_cases nonempty : path = ""
        · rw [nonempty]
          rfl
        · rw [FileTree.readText_eq] at missing ⊢
          cases usable : FileTree.isUsable path with
          | false =>
              rw [FileTree.locate, if_neg nonempty, usable] at missing
              cases missing
          | true =>
              rw [FileTree.locate_of_isUsable nonempty usable] at missing
              obtain ⟨before, rest, whole, found, led, nothing⟩ := FileTree.exists_of_missing missing
              have ledStill := kept.follow led
              obtain rfl := FileTree.eq_foldl_step_of_follow led
              rw [FileTree.locate_of_isUsable nonempty usable, kept.start, whole,
                FileTree.follow_append_of_ok ledStill]
              exact lost_after_run wellFormed done other onward whole nothing
      rw [missingStill]
      exact read
  · cases read

end

/-! ## The same run -/

/-- A run after a successful run plans the same project and changes nothing. -/
theorem run_again (wellFormed : tree.WellFormed) (done : run options tree = (after, .ok project))
    (other : SpellsOther tree after options.outputDir project options.typesFile)
    (onward : GoesOnward tree after options.typesFile) :
    run options after = (after, .ok project) := by
  obtain ⟨planned, -⟩ := run_eq_ok_iff.1 done
  obtain ⟨interfaces, definitions, read, loaded, generated⟩ := plan_eq_ok_iff.1 planned
  have plannedAgain : plan options after = .ok project :=
    plan_eq_ok_iff.2 ⟨interfaces, definitions, readInterfaces_run wellFormed done other onward read,
      loadDefinitions_run wellFormed done loaded, generated⟩
  obtain ⟨mid, dir, created, admits, rfl⟩ := exists_of_run wellFormed done
  have writtenAgain : project.write options.outputDir (mid.putFiles dir project.files) =
      (mid.putFiles dir project.files, .ok ()) := by
    refine (Project.write_eq_ok_iff (isFileName_of_plan wellFormed planned)).2
      ⟨_, dir, FileTree.createFolders_again created admits.keeps, admits.again, ?_⟩
    exact FileTree.putFiles_putFiles.symm
  exact run_eq_ok_iff.2 ⟨plannedAgain, writtenAgain⟩

/-- A run into a folder that lies in its input folder can be repeated. -/
theorem run_again_cardTree :
    cardTree.WellFormed ∧ run nestedOptions cardTree = (cardTreeAfter, .ok cardProject) ∧
      SpellsOther cardTree cardTreeAfter "components/generated" cardProject
        "components/generated/types.d.ts" ∧
      GoesOnward cardTree cardTreeAfter "components/generated/types.d.ts" ∧
      run nestedOptions cardTreeAfter = (cardTreeAfter, .ok cardProject) := by
  have other : SpellsOther cardTree cardTreeAfter "components/generated" cardProject
      "components/generated/types.d.ts" := by
    refine ⟨?_, by decide +kernel⟩
    rw [paths_cardProject]
    decide +kernel
  have onward : GoesOnward cardTree cardTreeAfter "components/generated/types.d.ts" := by
    intro before segment rest whole nothing _
    have spelled : ["components", "generated", "types.d.ts"] = before ++ segment :: rest := whole
    -- Only the last segment comes behind a folder that is new.
    rcases before with _ | ⟨first, _ | ⟨second, _ | ⟨third, more⟩⟩⟩
    · cases nothing
    · obtain ⟨rfl, -⟩ := List.cons.inj spelled
      cases nothing
    · obtain ⟨rfl, tail⟩ := List.cons.inj spelled
      obtain ⟨rfl, last⟩ := List.cons.inj tail
      obtain ⟨rfl, rfl⟩ := List.cons.inj last
      decide
    · have count := congrArg List.length spelled
      simp at count
  exact ⟨wellFormed_cardTree, run_cardTree, other, onward,
    run_again wellFormed_cardTree run_cardTree other onward⟩

/-! ### Paths through new folders -/

/-- A tree with an empty input folder. -/
def bareTree : FileTree := { entries := [(["components"], .folder)] }

/-- The tree with an output folder too. -/
def bareTreeAfter : FileTree := bareTree.put ["generated"] .folder

/-- Options whose interfaces are declared at a path through the output folder. -/
def optionsThroughOutput (rest : String) : Options := { typesFile := "generated/" ++ rest }

/-- Such a path is read as missing by a first run and cannot be read by a second one, if there is
something else in its way once the output folder is there. -/
theorem run_bareTree_twice {rest : String} {fault : Fault}
    (missing : bareTree.readText ("generated/" ++ rest) = .error .notFound)
    (different : fault ≠ .notFound)
    (failed : bareTreeAfter.readText ("generated/" ++ rest) = .error fault) :
    run (optionsThroughOutput rest) bareTree = (bareTreeAfter, .ok .empty) ∧
      run (optionsThroughOutput rest) bareTreeAfter =
        (bareTreeAfter, .error (.unreadable ("generated/" ++ rest) fault)) := by
  constructor
  · have listed : definitionFiles bareTree "components" = .ok [] := by
      have nothing : definitionNames bareTree "components" ["components"] = [] := rfl
      exact definitionFiles_eq_ok_iff.2
        ⟨["components"], rfl, rfl, by rw [nothing, List.mergeSort_nil]⟩
    have loaded : loadDefinitions bareTree "components" false = .ok [] := by
      rw [loadDefinitions, listed]
      rfl
    have read : readInterfaces bareTree ("generated/" ++ rest) = .ok .empty := by
      rw [readInterfaces, missing]
    have created : bareTree.createFolders "generated" = .ok bareTreeAfter := by decide +kernel
    have written : Project.empty.write "generated" bareTree = (bareTreeAfter, .ok ()) := by
      rw [Project.write, created]
      rfl
    exact run_eq_ok_iff.2 ⟨plan_eq_ok_iff.2 ⟨.empty, [], read, loaded, rfl⟩, written⟩
  · have notRead : readInterfaces bareTreeAfter ("generated/" ++ rest) =
        .error (.unreadable ("generated/" ++ rest) fault) := by
      rw [readInterfaces, failed]
      cases fault with
      | notFound => exact absurd rfl different
      | _ => rfl
    refine run_of_plan_error ?_
    rw [plan, Generator.load, optionsThroughOutput, notRead]
    rfl

/-- A first run takes a file for missing whose name in the output folder is too long, and a second
one finds that the name is too long. -/
theorem readText_through_output {name : String} (isName : IsFileName name)
    (usable : FileTree.isUsable ("generated/" ++ name) = true)
    (long : FileTree.nameLimit < name.utf8ByteSize) :
    bareTree.spelled ("generated/" ++ name) = ["generated", name] ∧
      bareTree.readText ("generated/" ++ name) = .error .notFound ∧
      bareTreeAfter.readText ("generated/" ++ name) = .error .unusable := by
  have segments : pathSegments ("generated/" ++ name) = ["generated", name] := by
    have slash : "generated/".toList = "generated".toList ++ ['/'] := rfl
    rw [pathSegments, String.toList_append, slash, List.append_assoc, List.singleton_append,
      FileTree.segments_append_slash, isName.segments_eq, List.map_append, List.map_singleton,
      String.ofList_toList]
    rfl
  have nonempty : "generated/" ++ name ≠ "" := by
    intro isEmpty
    have size := congrArg String.utf8ByteSize isEmpty
    rw [String.utf8ByteSize_append] at size
    exact absurd (Nat.eq_zero_of_add_eq_zero_right size) (by decide)
  have start (tree : FileTree) (atRoot : tree.workingFolder = []) :
      tree.start ("generated/" ++ name) = [] := by
    rw [FileTree.start, atRoot, ite_self]
  refine ⟨?_, ?_, ?_⟩
  · have onward : ¬ (name = "" ∨ name = ".") := not_or.2 ⟨isName.nonempty, isName.noDot⟩
    rw [FileTree.spelled, segments, start bareTree rfl, List.foldl_cons, List.foldl_cons,
      List.foldl_nil, step, if_neg onward, if_neg isName.noDots]
    rfl
  · rw [FileTree.readText_eq, FileTree.locate_of_isUsable nonempty usable, segments,
      start bareTree rfl]
    rfl
  · have walked : bareTreeAfter.walk ["generated"] name = .error .unusable := by
      rw [isName.walk_eq rfl, if_pos long]
    rw [FileTree.readText_eq, FileTree.locate_of_isUsable nonempty usable, segments,
      start bareTreeAfter rfl, FileTree.follow_cons,
      show bareTreeAfter.walk [] "generated" = .ok ["generated"] from rfl]
    simp only [bind, Except.bind, FileTree.follow_single, walked]

/-- A name that is one byte too long. -/
def longName : String := String.ofList (List.replicate 256 'a')

theorem utf8ByteSize_longName : longName.utf8ByteSize = 256 := by decide +kernel

theorem eq_of_mem_longName {c : Char} (member : c ∈ longName.toList) : c = 'a' :=
  List.eq_of_mem_replicate (String.toList_ofList.subst member)

theorem isFileName_longName : IsFileName longName := by
  have ne_of_short {name : String} (short : name.utf8ByteSize < 256) : longName ≠ name := by
    rintro rfl
    rw [utf8ByteSize_longName] at short
    omega
  refine ⟨fun slash => ?_, ne_of_short (by decide), ne_of_short (by decide), ne_of_short (by decide)⟩
  exact absurd (eq_of_mem_longName slash) (by decide)

theorem isUsable_longName : FileTree.isUsable ("generated/" ++ longName) = true := by
  have noZero : longName.toList.all (· != '\x00') = true :=
    List.all_eq_true.2 fun c member => by rw [eq_of_mem_longName member]; rfl
  rw [FileTree.isUsable, String.utf8ByteSize_append, utf8ByteSize_longName, String.toList_append,
    List.all_append, noZero]
  decide +kernel

/-- A path that leads back out of the folder that the run creates, and a name in there that nothing
can have, are both taken for missing by the first run only. -/
theorem run_again_fails_through_output :
    bareTree.WellFormed ∧
    ∀ rest ∈ ["../components", longName],
      run (optionsThroughOutput rest) bareTree = (bareTreeAfter, .ok .empty) ∧
      SpellsOther bareTree bareTreeAfter "generated" .empty ("generated/" ++ rest) ∧
      run (optionsThroughOutput rest) bareTreeAfter ≠ (bareTreeAfter, .ok .empty) := by
  refine ⟨by decide, fun rest member => ?_⟩
  have notWritten : ∀ file ∈ Project.empty.paths, ¬ bareTree.spelled (joinPath "generated" file) <+:
      bareTree.spelled ("generated/" ++ rest) :=
    fun file isFile => absurd isFile List.not_mem_nil
  rcases List.mem_cons.1 member with rfl | isLong
  · have missing : bareTree.readText ("generated/" ++ "../components") = .error .notFound := by
      decide +kernel
    have failed : bareTreeAfter.readText ("generated/" ++ "../components") = .error .wrongKind := by
      decide +kernel
    obtain ⟨first, second⟩ := run_bareTree_twice missing (by decide) failed
    exact ⟨first, ⟨notWritten, by decide +kernel⟩, by rw [second]; rintro ⟨⟩⟩
  · obtain ⟨spelled, missing, failed⟩ := readText_through_output isFileName_longName
      isUsable_longName (by rw [utf8ByteSize_longName]; decide)
    rw [List.mem_singleton.1 isLong] at notWritten ⊢
    obtain ⟨first, second⟩ := run_bareTree_twice missing (by decide) failed
    refine ⟨first, ⟨notWritten, ?_⟩, by rw [second]; rintro ⟨⟩⟩
    rw [spelled]
    rintro ⟨-, ⟨⟩⟩

end ComponentGen
