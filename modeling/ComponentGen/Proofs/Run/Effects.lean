import ComponentGen.Proofs.Run.Definitions
import ComponentGen.Proofs.Run.Steps
/-!
# What a run changes

Everything is read and generated before the first folder is created, so a run that fails in reading
or generating leaves no trace. A run that succeeds leaves the last file of each path of its project
in the output folder, and every other file as it was.
-/

namespace ComponentGen

open FileTree (IsFileName Keeps WellFormed)

variable {tree after : FileTree} {options : Options} {project : Project}

/-! ## Failed runs -/

/-- The error arises in writing. -/
def RunError.isWriting : RunError → Bool
  | .unwritable _ _ => true
  | .unreadable _ _ | .invalidDefinition _ | .collision _ => false

theorem isWriting_of_readInterfaces {path : String} {error : RunError}
    (failed : readInterfaces tree path = .error error) : error.isWriting = false := by
  rw [readInterfaces] at failed
  split at failed
  · cases failed
  · cases failed
  · cases failed
    rfl

theorem isWriting_of_readDefinition {folder name : String} {error : RunError}
    (failed : readDefinition tree folder name = .error error) : error.isWriting = false := by
  rw [readDefinition] at failed
  split at failed
  · cases failed
    rfl
  · split at failed
    · cases failed
      rfl
    · cases failed

theorem isWriting_of_readDefinitions {folder : String} {keepGoing : Bool} {done : List Definition}
    {names : List String} {error : RunError}
    (failed : readDefinitions tree folder keepGoing done names = .error error) :
    error.isWriting = false := by
  induction names generalizing done with
  | nil => cases failed
  | cons name rest ih =>
      rw [readDefinitions_cons] at failed
      split at failed
      · exact ih failed
      · next fault isFault =>
          split at failed
          · exact ih failed
          · obtain rfl := Except.error.inj failed
            exact isWriting_of_readDefinition isFault

theorem isWriting_of_loadDefinitions {folder : String} {keepGoing : Bool} {error : RunError}
    (failed : loadDefinitions tree folder keepGoing = .error error) : error.isWriting = false := by
  rw [loadDefinitions] at failed
  split at failed
  · cases failed
    rfl
  · exact isWriting_of_readDefinitions failed

/-- A plan does not fail in writing. -/
theorem isWriting_of_plan {error : RunError} (failed : plan options tree = .error error) :
    error.isWriting = false := by
  rcases bind_eq_error_cases failed with notLoaded | ⟨g, -, onward⟩
  · rcases bind_eq_error_cases notLoaded with notRead | ⟨interfaces, -, isLoaded⟩
    · exact isWriting_of_readInterfaces notRead
    · cases isLoaded
  · rcases bind_eq_error_cases onward with notLoaded | ⟨definitions, -, notGenerated⟩
    · exact isWriting_of_loadDefinitions notLoaded
    · cases generated : g.generate definitions with
      | error clash =>
          rw [generated] at notGenerated
          cases notGenerated
          rfl
      | ok given =>
          rw [generated] at notGenerated
          cases notGenerated

theorem isWriting_of_writeFiles {folder : String} {files : List GeneratedFile} {error : RunError}
    (failed : (writeFiles folder tree files).2 = .error error) : error.isWriting = true := by
  induction files generalizing tree with
  | nil => cases failed
  | cons file rest ih =>
      rw [writeFiles] at failed
      split at failed
      · exact ih failed
      · cases failed
        rfl

theorem isWriting_of_write {folder : String} {error : RunError}
    (failed : (project.write folder tree).2 = .error error) : error.isWriting = true := by
  rw [Project.write] at failed
  split at failed
  · cases failed
    rfl
  · exact isWriting_of_writeFiles failed

theorem run_of_plan_error {error : RunError} (failed : plan options tree = .error error) :
    run options tree = (tree, .error error) := by
  rw [run, failed]

/-- A run that fails has failed in its plan, or in writing what it has planned. -/
theorem run_eq_error_cases {error : RunError} (failed : (run options tree).2 = .error error) :
    plan options tree = .error error ∨
      ∃ project, plan options tree = .ok project ∧
        (project.write options.outputDir tree).2 = .error error := by
  rw [run] at failed
  split at failed
  · next planned =>
      cases failed
      exact .inl planned
  · next project planned =>
      refine .inr ⟨project, planned, ?_⟩
      split at failed
      · cases failed
      · next written =>
          obtain rfl := Except.error.inj failed
          rw [written]

/-! ## Runs that succeed -/

theorem run_eq_ok_iff :
    run options tree = (after, .ok project) ↔
      plan options tree = .ok project ∧
        project.write options.outputDir tree = (after, .ok ()) := by
  rw [run]
  cases plan options tree with
  | error error => simp
  | ok planned =>
      simp only [Except.ok.injEq]
      constructor
      · intro done
        split at done
        · next written =>
            obtain ⟨rfl, rfl⟩ : _ = after ∧ planned = project := by simpa using done
            exact ⟨rfl, written⟩
        · cases done
      · rintro ⟨rfl, written⟩
        rw [written]

/-- What a successful run does to a file tree: folders that are missing are added, and then the
files of the project are put into one of the folders. -/
theorem exists_of_run (wellFormed : tree.WellFormed)
    (done : run options tree = (after, .ok project)) :
    ∃ mid dir, tree.createFolders options.outputDir = .ok mid ∧
      mid.Admits options.outputDir dir project.files ∧ after = mid.putFiles dir project.files := by
  obtain ⟨planned, written⟩ := run_eq_ok_iff.1 done
  exact (Project.write_eq_ok_iff (isFileName_of_plan wellFormed planned)).1 written

theorem keeps_of_run (done : run options tree = (after, .ok project)) : Keeps tree after := by
  have kept := run_keeps options tree
  rwa [done] at kept

/-- Where no path of the project leads, a run leaves what was there, or adds a folder. -/
theorem at?_run_cases (wellFormed : tree.WellFormed)
    (done : run options tree = (after, .ok project)) {place : Place}
    (apart : ∀ path ∈ project.paths, after.locate (joinPath options.outputDir path) ≠ .ok place) :
    after.at? place = tree.at? place ∨ tree.at? place = none ∧ after.at? place = some .folder := by
  obtain ⟨mid, dir, created, admits, rfl⟩ := exists_of_run wellFormed done
  have same : (mid.putFiles dir project.files).at? place = mid.at? place := by
    refine FileTree.at?_putFiles_of_ne fun file member here => ?_
    refine apart file.path (List.mem_map_of_mem member) ?_
    rw [here]
    exact admits.again.leads file member
  rw [same]
  exact (FileTree.createFolders_adds created).at?_cases place

/-- Where no path of the project leads, a run leaves the files as they were. -/
theorem at?_run_file_iff (wellFormed : tree.WellFormed)
    (done : run options tree = (after, .ok project)) {place : Place}
    (apart : ∀ path ∈ project.paths, after.locate (joinPath options.outputDir path) ≠ .ok place)
    (content : Content) :
    after.at? place = some (.file content) ↔ tree.at? place = some (.file content) := by
  rcases at?_run_cases wellFormed done apart with same | ⟨nothing, isFolder⟩
  · rw [same]
  · rw [nothing, isFolder]
    simp

/-- A run that fails before writing leaves no trace, and only a run that has planned a project fails
in writing. A run that succeeds leaves the last file of each path in the output folder; it keeps all
folders, and every file that it has not written. -/
theorem run_changes_output_only (options : Options) (wellFormed : tree.WellFormed) :
    (∀ error, (run options tree).2 = .error error →
      (error.isWriting = false → (run options tree).1 = tree) ∧
      (error.isWriting = true → ∃ project, plan options tree = .ok project)) ∧
    ∀ after project, run options tree = (after, .ok project) →
      (∀ path ∈ project.paths, ∃ content, lastContent? project.files path = some content ∧
        after.readText (joinPath options.outputDir path) = .ok content) ∧
      (∀ place, tree.at? place = some .folder → after.at? place = some .folder) ∧
      ∀ place, (∀ path ∈ project.paths,
          after.locate (joinPath options.outputDir path) ≠ .ok place) →
        ∀ content, after.at? place = some (.file content) ↔ tree.at? place = some (.file content) := by
  refine ⟨fun error failed => ?_, fun after project done => ⟨?_, ?_, ?_⟩⟩
  · rcases run_eq_error_cases failed with planned | ⟨project, planned, written⟩
    · have notWriting := isWriting_of_plan planned
      refine ⟨fun _ => by rw [run_of_plan_error planned], fun isWriting => ?_⟩
      rw [notWriting] at isWriting
      cases isWriting
    · refine ⟨fun notWriting => ?_, fun _ => ⟨project, planned⟩⟩
      rw [isWriting_of_write written] at notWriting
      cases notWriting
  · obtain ⟨planned, written⟩ := run_eq_ok_iff.1 done
    exact fun path => Project.readText_write_last (isFileName_of_plan wellFormed planned) written
  · exact fun place => (keeps_of_run done).folder
  · exact fun place apart => at?_run_file_iff wellFormed done apart

/-- A tree with one definition and a file that no run is about. -/
def cardTree : FileTree where
  entries := [(["components"], .folder),
    (["components", "card.json"], .file (.text "\x7b\"type\":\"Text\"\x7d")),
    (["notes.md"], .file (.text "mine"))]

/-- Files are generated into a new folder next to the definitions, where the interfaces would be
declared too. -/
def nestedOptions : Options where
  outputDir := "components/generated"
  typesFile := "components/generated/types.d.ts"
  stories := false

theorem wellFormed_cardTree : cardTree.WellFormed := by decide

theorem read?_textNode : Node.read? "\x7b\"type\":\"Text\"\x7d" = some { type := "Text" } := by
  let written : Json.Written := .object [(some "type", .string (some "Text"))]
  have scanned : Json.Written.ofText? "\x7b\"type\":\"Text\"\x7d" = some written := rfl
  have used : Node.usedParts written = written := rfl
  have value : written.toJson? Json.maxDepth = some (.object [("type", .string "Text")]) := rfl
  have node : Node.ofJson? (.object [("type", .string "Text")]) = some { type := "Text" } := rfl
  rw [Node.read?, Json.read?, scanned]
  simp only [bind, Option.bind, used, value, node]

theorem loadDefinitions_cardTree :
    loadDefinitions cardTree "components" false =
      .ok [⟨"Card", "components/card.json", { type := "Text" }⟩] := by
  have listed : definitionFiles cardTree "components" = .ok ["card.json"] := by
    have only : definitionNames cardTree "components" ["components"] = ["card.json"] := rfl
    exact definitionFiles_eq_ok_iff.2
      ⟨["components"], rfl, rfl, by rw [only, List.mergeSort_singleton]⟩
  have text : cardTree.readText (joinPath "components" "card.json") =
      .ok "\x7b\"type\":\"Text\"\x7d" := rfl
  have read : readDefinition cardTree "components" "card.json" =
      .ok ⟨"Card", "components/card.json", { type := "Text" }⟩ := by
    rw [readDefinition, text]
    simp only [read?_textNode]
    rfl
  rw [loadDefinitions, listed]
  simp only [readDefinitions_cons, read]
  rfl

/-- What a run generates from the tree. -/
def cardProject : Project :=
  Generator.assembled { options := nestedOptions, interfaces := .empty }
    [⟨"Card", "components/card.json", { type := "Text" }⟩] []

theorem plan_cardTree : plan nestedOptions cardTree = .ok cardProject := by
  have missing : cardTree.readText nestedOptions.typesFile = .error .notFound := by decide +kernel
  have read : readInterfaces cardTree nestedOptions.typesFile = .ok .empty := by
    rw [readInterfaces, missing]
  exact plan_eq_ok_iff.2 ⟨.empty, _, read, loadDefinitions_cardTree, rfl⟩

theorem paths_cardProject : cardProject.paths = ["Card.tsx", "style.css", "Renderer.tsx"] := by
  decide +kernel

/-- The tree after the run. -/
def cardTreeAfter : FileTree :=
  (cardProject.write nestedOptions.outputDir cardTree).1

theorem run_cardTree : run nestedOptions cardTree = (cardTreeAfter, .ok cardProject) := by
  have written : (cardProject.write nestedOptions.outputDir cardTree).2 = .ok () := by
    decide +kernel
  refine run_eq_ok_iff.2 ⟨plan_cardTree, ?_⟩
  rw [cardTreeAfter, ← written]

theorem run_changes_output_only_cardTree :
    cardTree.WellFormed ∧
    (run { inputDir := "missing" } cardTree).1 = cardTree ∧
    run nestedOptions cardTree = (cardTreeAfter, .ok cardProject) ∧
    (∀ path ∈ cardProject.paths, ∃ content, lastContent? cardProject.files path = some content ∧
      cardTreeAfter.readText (joinPath "components/generated" path) = .ok content) ∧
    cardTreeAfter.at? ["notes.md"] = some (.file (.text "mine")) := by
  obtain ⟨failures, -⟩ := run_changes_output_only { inputDir := "missing" } wellFormed_cardTree
  obtain ⟨-, successes⟩ := run_changes_output_only nestedOptions wellFormed_cardTree
  obtain ⟨read, -, others⟩ := successes cardTreeAfter cardProject run_cardTree
  refine ⟨wellFormed_cardTree, (failures _ rfl).1 rfl, run_cardTree, read, ?_⟩
  refine (others _ ?_ (.text "mine")).2 rfl
  rw [paths_cardProject]
  decide +kernel

end ComponentGen
