import ComponentGen.Proofs.Folders
import ComponentGen.Run
import Mathlib.Logic.Relation
/-!
# The steps of a run

Whether it succeeds or not, a run changes its file tree step by step: a folder or a file is put
where a segment of a path leads, and never in the place of a folder. What every such step
preserves, a run preserves: the folders stay, and a well-formed tree stays well-formed.
-/

namespace ComponentGen

namespace FileTree

variable {tree next mid after : FileTree} {place : Place} {entry : Entry}

/-- The last segment of a path leads to where the path leads. -/
theorem exists_walk_of_locate {path : String} (led : tree.locate path = .ok place) :
    ∃ start segment, '/' ∉ segment.toList ∧ tree.walk start segment = .ok place := by
  obtain ⟨-, -, followed⟩ := locate_eq_ok led
  have whole := List.dropLast_concat_getLast (pathSegments_ne_nil path)
  rw [← whole] at followed
  obtain ⟨start, -, last⟩ := follow_append_eq_ok followed
  rw [follow_single] at last
  exact ⟨start, _, noSlash_of_mem_pathSegments (List.getLast_mem _), last⟩

/-! ## Steps -/

/-- A folder or a file is put where a segment leads, and no folder is there. -/
inductive Step (tree : FileTree) : FileTree → Prop where
  | put {start place : Place} {segment : String} (noSlash : '/' ∉ segment.toList)
      (walked : tree.walk start segment = .ok place) (notFolder : tree.at? place ≠ some .folder)
      (entry : Entry) : Step tree (tree.put place entry)

/-- One tree becomes the other step by step. -/
abbrev Steps : FileTree → FileTree → Prop :=
  Relation.ReflTransGen Step

theorem writeText_step {path text : String} (written : tree.writeText path text = .ok next) :
    Step tree next := by
  obtain ⟨place, led, notFolder, rfl⟩ := writeText_eq_ok written
  obtain ⟨start, segment, noSlash, walked⟩ := exists_walk_of_locate led
  exact .put noSlash walked notFolder _

theorem ensureFolder_steps {start : Place} {segment : String} (noSlash : '/' ∉ segment.toList)
    (walked : tree.walk start segment = .ok place) (ensured : tree.ensureFolder place = .ok next) :
    Steps tree next := by
  rw [ensureFolder] at ensured
  split at ensured
  · next free =>
      obtain rfl := Except.ok.inj ensured
      exact .single (.put noSlash walked (by rw [free]; rintro ⟨⟩) .folder)
  · obtain rfl := Except.ok.inj ensured
    exact .refl
  · cases ensured

theorem enterFolders_steps {segments : List String}
    (noSlash : ∀ segment ∈ segments, '/' ∉ segment.toList)
    (entered : tree.enterFolders place segments = .ok after) : Steps tree after := by
  induction segments generalizing tree place with
  | nil =>
      obtain rfl := Except.ok.inj entered
      exact .refl
  | cons segment rest ih =>
      obtain ⟨onward, mid, walked, ensured, later⟩ := enterFolders_cons_eq_ok entered
      have first := ensureFolder_steps (noSlash segment List.mem_cons_self) walked ensured
      exact first.trans (ih (fun other member => noSlash other (List.mem_cons_of_mem _ member)) later)

theorem createFolders_steps {path : String} (created : tree.createFolders path = .ok after) :
    Steps tree after := by
  have noSlash : ∀ segment ∈ steps path, '/' ∉ segment.toList := fun segment member =>
    noSlash_of_mem_pathSegments (List.mem_filter.1 member).1
  by_cases nonempty : path = ""
  · rw [createFolders, if_pos nonempty] at created
    obtain rfl := Except.ok.inj created
    exact .refl
  · obtain ⟨-, entered⟩ := (createFolders_eq_ok_iff nonempty).1 created
    split at entered
    · have inFront : ∀ segment ∈ (steps path).dropLast, '/' ∉ segment.toList :=
        fun segment member => noSlash segment (List.dropLast_subset _ member)
      exact enterFolders_steps inFront entered.1
    · exact enterFolders_steps noSlash entered

/-! ## What a step preserves -/

theorem Step.keeps (step : Step tree next) : Keeps tree next := by
  cases step with
  | put _ _ notFolder entry => exact Keeps.put notFolder entry

/-- Something may stand at the place: it has a name, and there is a folder around it. -/
structure Supports (tree : FileTree) (place : Place) : Prop where
  named : ∀ name ∈ place, IsFileName name
  rooted : tree.at? place.dropLast = some .folder

namespace WellFormed

variable (wellFormed : tree.WellFormed)

include wellFormed

theorem supports_of_at? (held : tree.at? place = some entry) : tree.Supports place := by
  rw [at?] at held
  split at held
  · next isRoot =>
      subst isRoot
      exact ⟨fun name member => absurd member List.not_mem_nil, if_pos rfl⟩
  · have member := Entries.mem_of_lookup held
    exact ⟨wellFormed.named _ member, wellFormed.rooted _ member⟩

/-- Staying in a folder and going back lead to a folder; going onward leads right into one. -/
theorem supports_of_walk {start : Place} {segment : String} (noSlash : '/' ∉ segment.toList)
    (walked : tree.walk start segment = .ok place) : tree.Supports place := by
  have isFolder := at?_of_walk walked
  have supports := wellFormed.supports_of_at? isFolder
  rw [eq_step_of_walk walked, step]
  split
  · exact supports
  · next moves =>
      rw [not_or] at moves
      split
      · exact wellFormed.supports_of_at? supports.rooted
      · next onward =>
          refine ⟨fun name member => ?_, ?_⟩
          · rcases List.mem_append.1 member with before | last
            · exact supports.named name before
            · obtain rfl := List.mem_singleton.1 last
              exact ⟨noSlash, moves.1, moves.2, onward⟩
          · rwa [List.dropLast_concat]

end WellFormed

/-- Folders stay, so what was supported is supported still, and so is what a step puts down. -/
theorem Step.wellFormed (wellFormed : tree.WellFormed) (step : Step tree next) :
    next.WellFormed := by
  have kept := step.keeps
  cases step with
  | @put start place segment noSlash walked notFolder entry =>
      have supports := wellFormed.supports_of_walk noSlash walked
      refine ⟨fun held member => ?_, fun held member => kept.folder ?_⟩
      · rcases Entries.mem_of_mem_put member with rfl | old
        · exact supports.named
        · exact wellFormed.named held old
      · rcases Entries.mem_of_mem_put member with rfl | old
        · exact supports.rooted
        · exact wellFormed.rooted held old

/-- The folders that lead to a working folder are there, and the working folder itself is. -/
theorem at?_ofWorkingFolder_take {n : Nat} (inside : n ≤ place.length) :
    (ofWorkingFolder place).at? (place.take n) = some .folder := by
  cases n with
  | zero => exact if_pos rfl
  | succ n =>
      rw [at?]
      split
      · rfl
      · have member : (place.take (n + 1), Entry.folder) ∈ (ofWorkingFolder place).entries :=
          List.mem_map.2 ⟨n, List.mem_range.2 inside, rfl⟩
        have isSome : ((ofWorkingFolder place).entries.lookup (place.take (n + 1))).isSome :=
          List.lookup_isSome_iff.2 ⟨_, member, beq_self_eq_true _⟩
        obtain ⟨entry, held⟩ := Option.isSome_iff_exists.1 isSome
        obtain ⟨m, -, same⟩ := List.mem_map.1 (Entries.mem_of_lookup held)
        rw [held, ← (Prod.mk.inj same).2]

/-- A program may start in any working folder. -/
theorem wellFormed_ofWorkingFolder (named : ∀ name ∈ place, IsFileName name) :
    (ofWorkingFolder place).WellFormed where
  named held member name inside := by
    obtain ⟨n, -, rfl⟩ := List.mem_map.1 member
    exact named name (List.mem_of_mem_take inside)
  rooted held member := by
    obtain ⟨n, inRange, rfl⟩ := List.mem_map.1 member
    have inside := List.mem_range.1 inRange
    have around : (place.take (n + 1)).dropLast = place.take n := by
      rw [List.dropLast_eq_take, List.length_take, List.take_take]
      congr 1
      omega
    exact around ▸ at?_ofWorkingFolder_take (Nat.le_of_lt inside)

theorem Steps.keeps (steps : Steps tree after) : Keeps tree after := by
  induction steps with
  | refl => exact Keeps.refl tree
  | tail _ last ih => exact ih.trans last.keeps

theorem Steps.wellFormed (wellFormed : tree.WellFormed) (steps : Steps tree after) :
    after.WellFormed := by
  induction steps with
  | refl => exact wellFormed
  | tail _ last ih => exact last.wellFormed ih

end FileTree

open FileTree (Keeps Steps WellFormed)

/-! ## Runs as steps -/

variable {tree : FileTree}

theorem writeFiles_steps (folder : String) (tree : FileTree) (files : List GeneratedFile) :
    Steps tree (writeFiles folder tree files).1 := by
  induction files generalizing tree with
  | nil => exact .refl
  | cons file rest ih =>
      rw [writeFiles]
      split
      · next written => exact .head (FileTree.writeText_step written) (ih _)
      · exact .refl

theorem Project.write_steps (p : Project) (folder : String) (tree : FileTree) :
    Steps tree (p.write folder tree).1 := by
  rw [Project.write]
  split
  · exact .refl
  · next created => exact (FileTree.createFolders_steps created).trans (writeFiles_steps folder _ _)

theorem run_steps (options : Options) (tree : FileTree) : Steps tree (run options tree).1 := by
  rw [run]
  split
  · exact .refl
  · next project _ =>
      have steps := project.write_steps options.outputDir tree
      split <;> next written => rwa [written] at steps

/-- Whether it succeeds or not, a run keeps all folders. -/
theorem run_keeps (options : Options) (tree : FileTree) : Keeps tree (run options tree).1 :=
  (run_steps options tree).keeps

/-- Whether it succeeds or not, a run leaves a well-formed tree well-formed, so that another run may
start from it. -/
theorem run_wellFormed (options : Options) (wellFormed : tree.WellFormed) :
    (run options tree).1.WellFormed :=
  (run_steps options tree).wellFormed wellFormed

end ComponentGen
