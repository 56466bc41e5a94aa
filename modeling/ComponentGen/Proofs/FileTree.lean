import ComponentGen.FileTree
import ComponentGen.Proofs.Outcome
/-!
# Writing and reading files

Where a path leads depends on the folders along it. A file is never written in the place of a
folder, so after writing it every path leads where it led before, and what is read changes at the
place of the file only. Plain file names in one folder lead to different places.

What a path spells is a place too, read off the path alone: a path that leads anywhere leads to the
place that it spells.
-/

namespace ComponentGen

/-! ## Segments -/

namespace Text

variable {isCut : Char → Bool}

/-- There is always a piece, if only an empty one. -/
theorem splitWhere_ne_nil (isCut : Char → Bool) (cs : List Char) : splitWhere isCut cs ≠ [] := by
  intro isNil
  have count := length_splitWhere isCut cs
  rw [isNil] at count
  cases count

theorem splitWhere_of_no_cut {cs : List Char} (free : ∀ c ∈ cs, isCut c = false) :
    splitWhere isCut cs = [cs] := by
  induction cs with
  | nil => rfl
  | cons c rest ih =>
      rw [splitWhere, free c List.mem_cons_self, if_neg Bool.false_ne_true,
        ih fun other member => free other (List.mem_cons_of_mem c member)]

/-- The pieces in front of a cut are followed by those behind it. -/
theorem splitWhere_append_cut {c : Char} (cut : isCut c = true) (before after : List Char) :
    splitWhere isCut (before ++ c :: after) =
      splitWhere isCut before ++ splitWhere isCut after := by
  induction before with
  | nil => simp [splitWhere, cut]
  | cons first rest ih =>
      rw [List.cons_append, splitWhere, splitWhere, ih]
      split
      · rfl
      · -- There is a piece for the first character to go into.
        cases pieces : splitWhere isCut rest with
        | nil => exact absurd pieces (splitWhere_ne_nil isCut rest)
        | cons piece more => rfl

/-- There is no cut inside a piece. -/
theorem not_cut_of_mem_splitWhere {cs piece : List Char}
    (isPiece : piece ∈ splitWhere isCut cs) : ∀ c ∈ piece, isCut c = false := by
  induction cs generalizing piece with
  | nil =>
      obtain rfl := List.mem_singleton.1 isPiece
      exact fun c member => absurd member List.not_mem_nil
  | cons first rest ih =>
      rw [splitWhere] at isPiece
      split at isPiece
      · rcases List.mem_cons.1 isPiece with rfl | later
        · exact fun c member => absurd member List.not_mem_nil
        · exact ih later
      · next noCut =>
          rw [Bool.not_eq_true] at noCut
          split at isPiece
          · obtain rfl := List.mem_singleton.1 isPiece
            intro c member
            rwa [List.mem_singleton.1 member]
          · next head more pieces =>
              rcases List.mem_cons.1 isPiece with rfl | later
              · intro c member
                rcases List.mem_cons.1 member with rfl | inside
                · exact noCut
                · exact ih (pieces ▸ List.mem_cons_self) c inside
              · exact ih (pieces ▸ List.mem_cons_of_mem head later)

end Text

namespace FileTree

variable {tree next : FileTree} {place : Place} {entry : Entry}

theorem segments_append_slash (before after : List Char) :
    segments (before ++ '/' :: after) = segments before ++ segments after :=
  Text.splitWhere_append_cut rfl before after

/-- The segments of a path as texts. -/
def pathSegments (path : String) : List String :=
  (segments path.toList).map String.ofList

theorem noSlash_of_mem_pathSegments {path segment : String}
    (isSegment : segment ∈ pathSegments path) : '/' ∉ segment.toList := by
  obtain ⟨piece, isPiece, rfl⟩ := List.mem_map.1 isSegment
  intro slash
  rw [String.toList_ofList] at slash
  have noCut := Text.not_cut_of_mem_splitWhere isPiece _ slash
  simp at noCut

theorem pathSegments_ne_nil (path : String) : pathSegments path ≠ [] :=
  mt List.map_eq_nil_iff.1 (Text.splitWhere_ne_nil _ path.toList)

/-! ## Where paths lead -/

/-- Walk segments onward from a place, one after the other. -/
def follow (tree : FileTree) (place : Place) (segments : List String) : Except Fault Place :=
  segments.foldlM tree.walk place

@[simp]
theorem follow_nil : tree.follow place [] = .ok place := rfl

theorem follow_cons (segment : String) (rest : List String) :
    tree.follow place (segment :: rest) = tree.walk place segment >>= (tree.follow · rest) :=
  List.foldlM_cons

theorem follow_append (before after : List String) :
    tree.follow place (before ++ after) = tree.follow place before >>= (tree.follow · after) :=
  List.foldlM_append

theorem follow_append_of_ok {before after : List String} {found : Place}
    (led : tree.follow place before = .ok found) :
    tree.follow place (before ++ after) = tree.follow found after := by
  rw [follow_append, led]
  rfl

theorem follow_single (segment : String) : tree.follow place [segment] = tree.walk place segment := by
  rw [follow_cons]
  cases tree.walk place segment <;> rfl

theorem follow_cons_eq_ok {segment : String} {rest : List String} {found : Place}
    (led : tree.follow place (segment :: rest) = .ok found) :
    ∃ onward, tree.walk place segment = .ok onward ∧ tree.follow onward rest = .ok found := by
  rw [follow_cons] at led
  exact exists_of_bind_eq_ok led

theorem follow_append_eq_ok {before after : List String} {found : Place}
    (led : tree.follow place (before ++ after) = .ok found) :
    ∃ onward, tree.follow place before = .ok onward ∧ tree.follow onward after = .ok found := by
  rw [follow_append] at led
  exact exists_of_bind_eq_ok led

/-- A usable path leads where its segments lead. -/
theorem locate_of_isUsable {path : String} (nonempty : path ≠ "") (usable : isUsable path = true) :
    tree.locate path = tree.follow (tree.start path) (pathSegments path) := by
  rw [locate, if_neg nonempty, usable, if_neg (by decide), follow, pathSegments, List.foldlM_map]

theorem locate_eq_ok {path : String} {found : Place} (led : tree.locate path = .ok found) :
    path ≠ "" ∧ isUsable path = true ∧
      tree.follow (tree.start path) (pathSegments path) = .ok found := by
  have nonempty : path ≠ "" := by
    rintro rfl
    cases led
  have usable : isUsable path = true := by
    cases unusable : isUsable path with
    | true => rfl
    | false =>
        rw [locate, if_neg nonempty, unusable] at led
        cases led
  exact ⟨nonempty, usable, locate_of_isUsable nonempty usable ▸ led⟩

/-- Walking onward starts from a folder. -/
theorem at?_of_walk {start found : Place} {segment : String}
    (walked : tree.walk start segment = .ok found) : tree.at? start = some .folder := by
  rw [walk] at walked
  split at walked
  · cases walked
  · cases walked
  · next isFolder => exact isFolder

theorem at?_put_of_ne {other : Place} (different : other ≠ place) :
    (tree.put place entry).at? other = tree.at? other := by
  rw [at?_put, if_neg different]
  split
  · next isRoot => rw [isRoot, at?, if_pos rfl]
  · rfl

/-! ### Folders that stay -/

/-- The folders of a tree are folders of the next one, and the working folder is the same. -/
structure Keeps (tree next : FileTree) : Prop where
  workingFolder : next.workingFolder = tree.workingFolder
  folder : ∀ {place : Place}, tree.at? place = some .folder → next.at? place = some .folder

namespace Keeps

theorem refl (tree : FileTree) : Keeps tree tree :=
  ⟨rfl, id⟩

theorem trans {last : FileTree} (first : Keeps tree next) (second : Keeps next last) :
    Keeps tree last :=
  ⟨second.workingFolder.trans first.workingFolder, fun isFolder => second.folder (first.folder isFolder)⟩

/-- Nothing is lost by putting an entry where there is no folder. -/
theorem put (notFolder : tree.at? place ≠ some .folder) (entry : Entry) :
    Keeps tree (tree.put place entry) where
  workingFolder := rfl
  folder {other} isFolder := by
    have elsewhere : other ≠ place := by
      rintro rfl
      exact notFolder isFolder
    rw [at?_put, if_neg elsewhere, isFolder, ite_self]

variable (kept : Keeps tree next)

include kept

theorem start (path : String) : next.start path = tree.start path := by
  rw [FileTree.start, FileTree.start, kept.workingFolder]

/-- From a folder that stays, a segment leads to the same place or to the same fault. -/
theorem walk_eq {start : Place} (isFolder : tree.at? start = some .folder) (segment : String) :
    next.walk start segment = tree.walk start segment := by
  rw [walk, walk, isFolder, kept.folder isFolder]

theorem follow {start found : Place} {segments : List String}
    (led : tree.follow start segments = .ok found) : next.follow start segments = .ok found := by
  induction segments generalizing start with
  | nil => exact led
  | cons segment rest ih =>
      obtain ⟨onward, walked, later⟩ := follow_cons_eq_ok led
      rw [follow_cons, kept.walk_eq (at?_of_walk walked), walked]
      exact ih later

/-- A path leads where it led before. -/
theorem locate {path : String} {found : Place} (led : tree.locate path = .ok found) :
    next.locate path = .ok found := by
  obtain ⟨nonempty, usable, followed⟩ := locate_eq_ok led
  rw [locate_of_isUsable nonempty usable, kept.start]
  exact kept.follow followed

end Keeps

/-! ### Spelled places -/

/-- The place that a segment spells from another place. -/
def step (place : Place) (segment : String) : Place :=
  if segment = "" ∨ segment = "." then place
  else if segment = ".." then place.dropLast
  else place ++ [segment]

theorem eq_step_of_walk {found : Place} {segment : String}
    (walked : tree.walk place segment = .ok found) : found = step place segment := by
  rw [walk, at?_of_walk walked] at walked
  rw [step]
  simp only at walked
  split at walked
  · next stays =>
      rw [if_pos stays]
      exact (Except.ok.inj walked).symm
  · next moves =>
      rw [if_neg moves]
      split at walked
      · next back =>
          rw [if_pos back]
          exact (Except.ok.inj walked).symm
      · next onward =>
          rw [if_neg onward]
          split at walked
          · cases walked
          · exact (Except.ok.inj walked).symm

/-- The place that a path spells, whether or not it leads there. -/
def spelled (tree : FileTree) (path : String) : Place :=
  (pathSegments path).foldl step (tree.start path)

theorem eq_foldl_step_of_follow {found : Place} {segments : List String}
    (led : tree.follow place segments = .ok found) : found = segments.foldl step place := by
  induction segments generalizing place with
  | nil => exact (Except.ok.inj led).symm
  | cons segment rest ih =>
      obtain ⟨onward, walked, later⟩ := follow_cons_eq_ok led
      obtain rfl := eq_step_of_walk walked
      exact ih later

/-- A path that leads anywhere leads to the place that it spells. -/
theorem eq_spelled_of_locate {path : String} {found : Place} (led : tree.locate path = .ok found) :
    found = tree.spelled path :=
  eq_foldl_step_of_follow (locate_eq_ok led).2.2

/-! ## Reading and writing -/

/-- What is read at a place. -/
def textAt (tree : FileTree) (place : Place) : Except Fault String :=
  match tree.at? place with
  | none => .error .notFound
  | some .folder => .error .wrongKind
  | some (.file (.binary _)) => .error .notText
  | some (.file (.text s)) => .ok s

theorem readText_eq (path : String) : tree.readText path = tree.locate path >>= tree.textAt := rfl

theorem readText_of_locate {path : String} (led : tree.locate path = .ok place) :
    tree.readText path = tree.textAt place := by
  rw [readText_eq, led]
  rfl

theorem textAt_of_file {text : String} (isFile : tree.at? place = some (.file (.text text))) :
    tree.textAt place = .ok text := by
  rw [textAt, isFile]

theorem textAt_congr (same : next.at? place = tree.at? place) :
    next.textAt place = tree.textAt place := by
  rw [textAt, textAt, same]

theorem at?_of_textAt {text : String} (read : tree.textAt place = .ok text) :
    tree.at? place = some (.file (.text text)) := by
  rw [textAt] at read
  split at read
  · cases read
  · cases read
  · cases read
  · next held =>
      obtain rfl := Except.ok.inj read
      exact held

theorem isFile_iff {path : String} :
    tree.isFile path = true ↔
      ∃ place content, tree.locate path = .ok place ∧ tree.at? place = some (.file content) := by
  rw [isFile]
  cases tree.locate path with
  | error fault => simp
  | ok place =>
      simp only [Except.ok.injEq, exists_and_left, exists_eq_left']
      cases tree.at? place with
      | none => simp
      | some entry => cases entry <;> simp

/-- What writing a file comes to: there is no folder in its place, and it is put there. -/
theorem writeText_eq_ok {path text : String} (written : tree.writeText path text = .ok next) :
    ∃ place, tree.locate path = .ok place ∧ tree.at? place ≠ some .folder ∧
      next = tree.put place (.file (.text text)) := by
  obtain ⟨place, led, put⟩ := exists_of_bind_eq_ok written
  refine ⟨place, led, ?_⟩
  split at put
  · cases put
  · next notFolder => exact ⟨notFolder, (Except.ok.inj put).symm⟩

theorem writeText_of_locate {path : String} (led : tree.locate path = .ok place)
    (notFolder : tree.at? place ≠ some .folder) (text : String) :
    tree.writeText path text = .ok (tree.put place (.file (.text text))) := by
  rw [writeText, led]
  simp only [bind, Except.bind]

/-! ## File names in a folder -/

/-- The text names something right inside a folder. -/
structure IsFileName (name : String) : Prop where
  noSlash : '/' ∉ name.toList
  nonempty : name ≠ ""
  noDot : name ≠ "."
  noDots : name ≠ ".."

instance (name : String) : Decidable (IsFileName name) :=
  decidable_of_iff ('/' ∉ name.toList ∧ name ≠ "" ∧ name ≠ "." ∧ name ≠ "..")
    ⟨fun ⟨noSlash, nonempty, noDot, noDots⟩ => ⟨noSlash, nonempty, noDot, noDots⟩,
      fun ⟨noSlash, nonempty, noDot, noDots⟩ => ⟨noSlash, nonempty, noDot, noDots⟩⟩

/-- The place of a folder that files are read from or written into: the empty path stands for the
working folder there. -/
def folderPlace (tree : FileTree) (folder : String) : Except Fault Place :=
  if folder = "" then .ok tree.workingFolder else tree.locate folder

/-- The empty path leads nowhere, so a path that does is not empty. -/
theorem folderPlace_of_locate {folder : String} {dir : Place} (led : tree.locate folder = .ok dir) :
    tree.folderPlace folder = .ok dir := by
  rw [folderPlace, if_neg (locate_eq_ok led).1, led]

theorem Keeps.folderPlace {folder : String} {dir : Place} (kept : Keeps tree next)
    (led : tree.folderPlace folder = .ok dir) : next.folderPlace folder = .ok dir := by
  rw [FileTree.folderPlace] at led ⊢
  split
  · next isEmpty =>
      rw [if_pos isEmpty] at led
      rw [kept.workingFolder]
      exact led
  · next nonempty =>
      rw [if_neg nonempty] at led
      exact kept.locate led

namespace IsFileName

variable {folder name : String} (isName : IsFileName name)

include isName

theorem segments_eq : segments name.toList = [name.toList] := by
  refine Text.splitWhere_of_no_cut fun c member => ?_
  rw [beq_eq_false_iff_ne]
  rintro rfl
  exact isName.noSlash member

theorem not_isAbsolute : ¬ isAbsolute name := by
  intro absolute
  obtain ⟨rest, spelled⟩ := List.head?_eq_some_iff.1 (beq_iff_eq.1 absolute)
  exact isName.noSlash (spelled ▸ List.mem_cons_self)

theorem walk_eq (isFolder : tree.at? place = some .folder) :
    tree.walk place name =
      if nameLimit < name.utf8ByteSize then .error .unusable else .ok (place ++ [name]) := by
  have onward : ¬ (name = "" ∨ name = ".") := not_or.2 ⟨isName.nonempty, isName.noDot⟩
  rw [walk, isFolder]
  simp only [if_neg onward, if_neg isName.noDots]

theorem joinPath_eq (folder : String) :
    joinPath folder name =
      if folder = "" then name
      else if folder.toList.getLast? = some '/' then folder ++ name
      else folder ++ "/" ++ name := by
  rw [joinPath]
  simp only [isName.not_isAbsolute, Bool.false_eq_true, false_or]

theorem joinPath_ne_empty (folder : String) : joinPath folder name ≠ "" := by
  rw [isName.joinPath_eq]
  split
  · exact isName.nonempty
  · next nonempty =>
      split <;> intro isEmpty <;> simp [nonempty] at isEmpty

end IsFileName

theorem isUsable_of_append {front back : String} (usable : isUsable (front ++ back) = true) :
    isUsable front = true := by
  rw [isUsable, Bool.and_eq_true, decide_eq_true_iff, String.utf8ByteSize_append,
    String.toList_append, List.all_append, Bool.and_eq_true] at usable
  rw [isUsable, Bool.and_eq_true, decide_eq_true_iff]
  exact ⟨by omega, usable.2.1⟩

theorem start_append {front : String} (nonempty : front ≠ "") (back : String) :
    tree.start (front ++ back) = tree.start front := by
  have head : (front ++ back).toList.head? = front.toList.head? := by
    obtain ⟨c, rest, spelled⟩ := List.exists_cons_of_ne_nil (mt String.toList_eq_nil_iff.1 nonempty)
    rw [String.toList_append, spelled, List.cons_append, List.head?_cons, List.head?_cons]
  rw [start, start, isAbsolute, isAbsolute, head]

/-- Behind a slash nothing is left to walk, but there must be a folder in front of it. -/
theorem follow_append_empty {before : List String} {found : Place}
    (isFolder : tree.at? found = some .folder) :
    tree.follow place (before ++ [""]) = .ok found ↔ tree.follow place before = .ok found := by
  have stays {onward : Place} (onFolder : tree.at? onward = some .folder) :
      tree.walk onward "" = .ok onward := by
    rw [walk, onFolder]
    exact if_pos (.inl rfl)
  constructor
  · intro led
    obtain ⟨onward, front, back⟩ := follow_append_eq_ok led
    rw [follow_single] at back
    have same := back.symm.trans (stays (at?_of_walk back))
    rw [front, Except.ok.inj same]
  · intro led
    rw [follow_append_of_ok led, follow_single, stays isFolder]

/-- What stands in front of a file name in a joined path leads to the folder. -/
theorem exists_parent {name : String} (isName : IsFileName name) (folder : String) :
    ∃ parent, pathSegments (joinPath folder name) = parent ++ [name] ∧
      ∀ (tree : FileTree) {dir : Place}, isUsable (joinPath folder name) = true →
        tree.at? dir = some .folder →
          (tree.follow (tree.start (joinPath folder name)) parent = .ok dir ↔
            tree.folderPlace folder = .ok dir) := by
  rw [isName.joinPath_eq, pathSegments]
  split
  · next isEmpty =>
      refine ⟨[], ?_, fun tree dir _ _ => ?_⟩
      · rw [isName.segments_eq, List.map_singleton, String.ofList_toList]
        rfl
      · rw [folderPlace, if_pos isEmpty, start, if_neg isName.not_isAbsolute]
        rfl
  · next nonempty =>
      split
      · next slash =>
          obtain ⟨before, spelled⟩ := List.getLast?_eq_some_iff.1 slash
          refine ⟨(segments before).map String.ofList, ?_, fun tree dir usable isFolder => ?_⟩
          · rw [String.toList_append, spelled, List.append_assoc, List.singleton_append,
              segments_append_slash, isName.segments_eq, List.map_append, List.map_singleton,
              String.ofList_toList]
          · have whole : pathSegments folder = (segments before).map String.ofList ++ [""] := by
              rw [pathSegments, spelled, segments_append_slash, List.map_append]
              rfl
            rw [folderPlace, if_neg nonempty,
              locate_of_isUsable nonempty (isUsable_of_append usable), whole,
              follow_append_empty isFolder, start_append nonempty]
      · refine ⟨pathSegments folder, ?_, fun tree dir usable _ => ?_⟩
        · have spelled : (folder ++ "/" ++ name).toList = folder.toList ++ '/' :: name.toList := by
            rw [String.toList_append, String.toList_append, List.append_assoc]
            rfl
          rw [spelled, segments_append_slash, isName.segments_eq, List.map_append,
            List.map_singleton, String.ofList_toList, pathSegments]
        · rw [String.append_assoc] at usable ⊢
          rw [folderPlace, if_neg nonempty,
            locate_of_isUsable nonempty (isUsable_of_append usable), start_append nonempty]

/-- A file name in a folder leads right into it, unless the path or the name is too long. -/
theorem locate_joinPath {folder name : String} {dir : Place} (isName : IsFileName name)
    (led : tree.folderPlace folder = .ok dir) (isFolder : tree.at? dir = some .folder) :
    tree.locate (joinPath folder name) =
      if isUsable (joinPath folder name) = true ∧ name.utf8ByteSize ≤ nameLimit then
        .ok (dir ++ [name])
      else .error .unusable := by
  cases usable : isUsable (joinPath folder name) with
  | false =>
      rw [locate, if_neg (isName.joinPath_ne_empty folder), usable]
      simp
  | true =>
      obtain ⟨parent, whole, leads⟩ := exists_parent isName folder
      have front := (leads tree usable isFolder).2 led
      rw [locate_of_isUsable (isName.joinPath_ne_empty folder) usable, whole,
        follow_append_of_ok front, follow_single, isName.walk_eq isFolder]
      by_cases short : name.utf8ByteSize ≤ nameLimit
      · rw [if_neg (Nat.not_lt.2 short), if_pos ⟨rfl, short⟩]
      · rw [if_pos (Nat.lt_of_not_le short), if_neg fun both => short both.2]

/-- Where a file name in a folder leads anywhere, the folder is there. -/
theorem exists_folder_of_locate {folder name : String} (isName : IsFileName name)
    (led : tree.locate (joinPath folder name) = .ok place) :
    ∃ dir, tree.folderPlace folder = .ok dir ∧ tree.at? dir = some .folder ∧
      place = dir ++ [name] := by
  obtain ⟨-, usable, followed⟩ := locate_eq_ok led
  obtain ⟨parent, whole, leads⟩ := exists_parent isName folder
  rw [whole] at followed
  obtain ⟨dir, front, last⟩ := follow_append_eq_ok followed
  rw [follow_single] at last
  have isFolder := at?_of_walk last
  rw [isName.walk_eq isFolder] at last
  split at last
  · cases last
  · exact ⟨dir, (leads tree usable isFolder).1 front, isFolder, (Except.ok.inj last).symm⟩

section

variable {folder name : String} {dir : Place} (isName : IsFileName name)
  (led : tree.folderPlace folder = .ok dir) (isFolder : tree.at? dir = some .folder)

include isName led isFolder

/-- A file name in a folder that stays leads where it led, or nowhere as before. -/
theorem Keeps.locate_joinPath (kept : Keeps tree next) :
    next.locate (joinPath folder name) = tree.locate (joinPath folder name) := by
  rw [FileTree.locate_joinPath isName led isFolder,
    FileTree.locate_joinPath isName (kept.folderPlace led) (kept.folder isFolder)]

theorem eq_of_locate_joinPath (ledToName : tree.locate (joinPath folder name) = .ok place) :
    place = dir ++ [name] := by
  rw [locate_joinPath isName led isFolder] at ledToName
  split at ledToName
  · exact (Except.ok.inj ledToName).symm
  · cases ledToName

/-- There is a file of a name in a folder if one stands there that a path can be spelled to. -/
theorem isFile_joinPath_iff :
    tree.isFile (joinPath folder name) = true ↔
      tree.locate (joinPath folder name) = .ok (dir ++ [name]) ∧
        ∃ content, tree.at? (dir ++ [name]) = some (.file content) := by
  rw [isFile_iff]
  constructor
  · rintro ⟨place, content, ledToName, held⟩
    obtain rfl := eq_of_locate_joinPath isName led isFolder ledToName
    exact ⟨ledToName, content, held⟩
  · rintro ⟨ledToName, content, held⟩
    exact ⟨_, content, ledToName, held⟩

variable (kept : Keeps tree next) (same : next.at? (dir ++ [name]) = tree.at? (dir ++ [name]))

include kept same

/-- Where a folder stays and what a name in it stands for does too, the name is read as before. -/
theorem Keeps.readText_joinPath :
    next.readText (joinPath folder name) = tree.readText (joinPath folder name) := by
  rw [readText_eq, readText_eq, kept.locate_joinPath isName led isFolder]
  cases ledToName : tree.locate (joinPath folder name) with
  | error fault => rfl
  | ok place =>
      obtain rfl := eq_of_locate_joinPath isName led isFolder ledToName
      exact textAt_congr same

theorem Keeps.isFile_joinPath :
    next.isFile (joinPath folder name) = tree.isFile (joinPath folder name) := by
  rw [Bool.eq_iff_iff, isFile_joinPath_iff isName led isFolder,
    isFile_joinPath_iff isName (kept.folderPlace led) (kept.folder isFolder),
    kept.locate_joinPath isName led isFolder, same]

end

/-! ## The files in a folder -/

/-- The names of the files right inside a place. -/
def namesAt (tree : FileTree) (place : Place) : List String :=
  tree.entries.filterMap fun (other, entry) =>
    match entry with
    | .file _ => nameIn? place other
    | .folder => none

theorem nameIn?_eq_some_iff {name : String} {other : Place} :
    nameIn? place other = some name ↔ other = place ++ [name] := by
  rw [nameIn?]
  rcases List.eq_nil_or_concat other with rfl | ⟨front, last, rfl⟩
  · simp
  · simp only [List.concat_eq_append, List.getLast?_concat, List.dropLast_concat]
    constructor
    · intro held
      split at held
      · next same => rw [same, Option.some.inj held]
      · cases held
    · intro same
      obtain ⟨rfl, names⟩ := List.append_inj' same rfl
      rw [if_pos rfl, List.singleton_inj.1 names]

theorem mem_namesAt_iff {name : String} :
    name ∈ tree.namesAt place ↔ ∃ content, (place ++ [name], .file content) ∈ tree.entries := by
  rw [namesAt, List.mem_filterMap]
  constructor
  · rintro ⟨⟨other, entry⟩, member, named⟩
    cases entry with
    | folder => cases named
    | file content =>
        obtain rfl := nameIn?_eq_some_iff.1 named
        exact ⟨content, member⟩
  · rintro ⟨content, member⟩
    exact ⟨_, member, nameIn?_eq_some_iff.2 rfl⟩

theorem fileNames_eq_ok_iff {path : String} {names : List String} :
    tree.fileNames path = .ok names ↔
      ∃ place, tree.locate path = .ok place ∧ tree.at? place = some .folder ∧
        names = tree.namesAt place := by
  rw [fileNames]
  cases tree.locate path with
  | error fault => simp [bind, Except.bind]
  | ok place =>
      simp only [bind, Except.bind, Except.ok.injEq, exists_eq_left']
      cases tree.at? place with
      | none => simp
      | some entry =>
          cases entry with
          | file content => simp
          | folder =>
              simp only [Except.ok.injEq, true_and]
              exact eq_comm

/-! ## Entries and what stands at their places -/

theorem concat_ne_nil (dir : Place) (name : String) : dir ++ [name] ≠ [] :=
  List.append_ne_nil_of_right_ne_nil dir (List.cons_ne_nil name [])

/-- What stands inside a folder has an entry; only the root has none. -/
theorem mem_entries_of_at? {name : String} (held : tree.at? (place ++ [name]) = some entry) :
    (place ++ [name], entry) ∈ tree.entries := by
  rw [at?, if_neg (concat_ne_nil place name)] at held
  exact Entries.mem_of_lookup held

/-- Something stands at the place of every entry. -/
theorem at?_ne_none_of_mem (held : (place, entry) ∈ tree.entries) : tree.at? place ≠ none := by
  rw [at?]
  split
  · exact Option.some_ne_none _
  · intro nothing
    exact absurd (beq_self_eq_true place)
      (by simpa using List.lookup_eq_none_iff.1 nothing _ held)

/-! ## Well-formed trees -/

/-- A tree as file systems have it: whatever there is has a name, and there is a folder around it. -/
structure WellFormed (tree : FileTree) : Prop where
  named : ∀ entry ∈ tree.entries, ∀ name ∈ entry.1, IsFileName name
  rooted : ∀ entry ∈ tree.entries, tree.at? entry.1.dropLast = some .folder

instance (tree : FileTree) : Decidable tree.WellFormed :=
  decidable_of_iff ((∀ entry ∈ tree.entries, ∀ name ∈ entry.1, IsFileName name) ∧
      ∀ entry ∈ tree.entries, tree.at? entry.1.dropLast = some .folder)
    ⟨fun ⟨named, rooted⟩ => ⟨named, rooted⟩, fun ⟨named, rooted⟩ => ⟨named, rooted⟩⟩

/-- Whatever stands right inside a folder has a file name. -/
theorem WellFormed.isFileName (wellFormed : tree.WellFormed) {name : String}
    (held : (place ++ [name], entry) ∈ tree.entries) : IsFileName name :=
  wellFormed.named _ held name (List.mem_append_right place List.mem_cons_self)

/-- Nothing is right inside a place that is no folder. -/
theorem WellFormed.at?_concat_eq_none (wellFormed : tree.WellFormed)
    (notFolder : tree.at? place ≠ some .folder) (name : String) :
    tree.at? (place ++ [name]) = none := by
  cases held : tree.at? (place ++ [name]) with
  | none => rfl
  | some entry =>
      have around := wellFormed.rooted _ (mem_entries_of_at? held)
      rw [List.dropLast_concat] at around
      exact absurd around notFolder

end FileTree

end ComponentGen
