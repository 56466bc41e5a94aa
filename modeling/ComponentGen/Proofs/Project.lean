import ComponentGen.Proofs.FileTree
import ComponentGen.Proofs.OrderedMap
import ComponentGen.Run
import Mathlib.Data.List.Nodup
/-!
# Written projects

A project that is written without a fault is put into its folder file by file. The last file of a
path is the one that is read back, while looking the path up in the project gives the first one;
where no path comes twice, the two are the same. Putting the files of a project a second time
changes nothing, whether or not paths come twice.
-/

namespace ComponentGen

open FileTree (IsFileName)

/-! ## Files put into a folder -/

namespace FileTree

variable {tree : FileTree} {place : Place} {entry : Entry}

/-- A place with a file is in the list of entries. -/
theorem lookup_of_file {content : Content} (held : tree.at? place = some (.file content)) :
    tree.entries.lookup place = some (.file content) := by
  rw [at?] at held
  split at held
  · cases held
  · exact held

/-- Put files into a folder, one after the other. -/
def putFiles (dir : Place) (tree : FileTree) (files : List GeneratedFile) : FileTree :=
  files.foldl (fun tree file => tree.put (dir ++ [file.path]) (.file (.text file.content))) tree

variable {dir : Place} {files : List GeneratedFile}

theorem putFiles_cons (file : GeneratedFile) (rest : List GeneratedFile) :
    putFiles dir tree (file :: rest) =
      putFiles dir (tree.put (dir ++ [file.path]) (.file (.text file.content))) rest := rfl

theorem at?_put_concat (name : String) :
    (tree.put (dir ++ [name]) entry).at? (dir ++ [name]) = some entry := by
  rw [at?_put, if_neg (concat_ne_nil dir name), if_pos rfl]

/-- A file that is put somewhere puts no folder into another one. -/
theorem at?_put_file_ne_folder {name : String} {content : Content}
    (free : tree.at? (dir ++ [name]) ≠ some .folder) :
    (tree.put place (.file content)).at? (dir ++ [name]) ≠ some .folder := by
  rw [at?_put, if_neg (concat_ne_nil dir name)]
  split
  · rintro ⟨⟩
  · exact free

/-- Files are put at their own places only. -/
theorem at?_putFiles_of_ne (elsewhere : ∀ file ∈ files, place ≠ dir ++ [file.path]) :
    (putFiles dir tree files).at? place = tree.at? place := by
  induction files generalizing tree with
  | nil => rfl
  | cons file rest ih =>
      rw [putFiles_cons, ih fun later member => elsewhere later (List.mem_cons_of_mem file member),
        at?_put_of_ne (elsewhere file List.mem_cons_self)]

end FileTree

/-- The content of the last file with a path. -/
def lastContent? (files : List GeneratedFile) (path : String) : Option String :=
  (files.reverse.find? (·.path == path)).map (·.content)

theorem lastContent?_cons (file : GeneratedFile) (rest : List GeneratedFile) (path : String) :
    lastContent? (file :: rest) path =
      (lastContent? rest path).or (if file.path = path then some file.content else none) := by
  rw [lastContent?, lastContent?, List.reverse_cons, List.find?_append]
  cases rest.reverse.find? (·.path == path) with
  | some later => rfl
  | none => by_cases same : file.path = path <;> simp [same]

theorem lastContent?_eq_none_iff {files : List GeneratedFile} {path : String} :
    lastContent? files path = none ↔ ∀ file ∈ files, file.path ≠ path := by
  rw [lastContent?, Option.map_eq_none_iff, List.find?_eq_none]
  simp

namespace FileTree

variable {tree : FileTree} {dir : Place} {files : List GeneratedFile}

/-- At the place of a path stands the last file with that path, if there is one. -/
theorem at?_putFiles (path : String) :
    (putFiles dir tree files).at? (dir ++ [path]) =
      ((lastContent? files path).map fun content => Entry.file (.text content)).or
        (tree.at? (dir ++ [path])) := by
  induction files generalizing tree with
  | nil => rfl
  | cons file rest ih =>
      rw [putFiles_cons, ih, lastContent?_cons]
      by_cases same : file.path = path
      · rw [same, at?_put_concat, if_pos rfl]
        cases lastContent? rest path <;> rfl
      · have different : dir ++ [path] ≠ dir ++ [file.path] := by
          intro places
          exact same (List.singleton_inj.1 (List.append_cancel_left places)).symm
        rw [at?_put_of_ne different, if_neg same, Option.or_none]

/-- No folder is lost by putting files where there is none. -/
theorem Keeps.putFiles (free : ∀ file ∈ files, tree.at? (dir ++ [file.path]) ≠ some .folder) :
    Keeps tree (putFiles dir tree files) := by
  induction files generalizing tree with
  | nil => exact Keeps.refl tree
  | cons file rest ih =>
      have first : Keeps tree _ :=
        Keeps.put (free file List.mem_cons_self) (.file (.text file.content))
      exact first.trans (ih fun later member =>
        at?_put_file_ne_folder (free later (List.mem_cons_of_mem file member)))

/-- A file that is put again later need not be put before. -/
theorem putFiles_put_of_mem {path : String} {content : Content}
    (present : dir ++ [path] ∈ tree.entries.map Prod.fst)
    (later : ∃ file ∈ files, file.path = path) :
    putFiles dir (tree.put (dir ++ [path]) (.file content)) files = putFiles dir tree files := by
  induction files generalizing tree with
  | nil =>
      obtain ⟨file, member, -⟩ := later
      cases member
  | cons file rest ih =>
      rw [putFiles_cons, putFiles_cons]
      by_cases same : file.path = path
      · rw [same]
        congr 1
        exact congrArg (fun entries => { tree with entries }) (Entries.put_put_self ..)
      · have different : dir ++ [path] ≠ dir ++ [file.path] := by
          intro places
          exact same (List.singleton_inj.1 (List.append_cancel_left places)).symm
        have swapped : (tree.put (dir ++ [path]) (.file content)).put (dir ++ [file.path])
              (.file (.text file.content)) =
            (tree.put (dir ++ [file.path]) (.file (.text file.content))).put (dir ++ [path])
              (.file content) :=
          congrArg (fun entries => { tree with entries }) (Entries.put_put_comm present different).symm
        rw [swapped]
        refine ih ?_ ?_
        · rw [put, Entries.keys_put]
          split
          · exact present
          · exact List.mem_append_left _ present
        · obtain ⟨other, member, samePath⟩ := later
          rcases List.mem_cons.1 member with rfl | inRest
          · exact absurd samePath same
          · exact ⟨other, inRest, samePath⟩

/-- Files that are all there already are put without a change. -/
theorem putFiles_of_held (held : ∀ file ∈ files, ∃ content, lastContent? files file.path = some content ∧
      tree.at? (dir ++ [file.path]) = some (.file (.text content))) :
    putFiles dir tree files = tree := by
  induction files with
  | nil => rfl
  | cons file rest ih =>
      have restHeld : ∀ later ∈ rest, ∃ content, lastContent? rest later.path = some content ∧
          tree.at? (dir ++ [later.path]) = some (.file (.text content)) := by
        intro later member
        obtain ⟨content, isLast, there⟩ := held later (List.mem_cons_of_mem file member)
        refine ⟨content, ?_, there⟩
        cases found : lastContent? rest later.path with
        | none => exact absurd rfl (lastContent?_eq_none_iff.1 found later member)
        | some given =>
            rw [lastContent?_cons, found] at isLast
            exact isLast
      obtain ⟨content, isLast, there⟩ := held file List.mem_cons_self
      by_cases later : ∃ other ∈ rest, other.path = file.path
      · have present := List.mem_map_of_mem (f := Prod.fst)
          (Entries.mem_of_lookup (lookup_of_file there))
        rw [putFiles_cons, putFiles_put_of_mem present later, ih restHeld]
      · have alone : lastContent? rest file.path = none :=
          lastContent?_eq_none_iff.2 fun other member same => later ⟨other, member, same⟩
        rw [lastContent?_cons, alone, if_pos rfl] at isLast
        obtain rfl := Option.some.inj isLast
        have unchanged : tree.put (dir ++ [file.path]) (.file (.text file.content)) = tree :=
          congrArg (fun entries => { tree with entries }) (Entries.put_of_lookup (lookup_of_file there))
        rw [putFiles_cons, unchanged, ih restHeld]

/-- Putting files twice is putting them once. -/
theorem putFiles_putFiles :
    putFiles dir (putFiles dir tree files) files = putFiles dir tree files := by
  refine putFiles_of_held fun file member => ?_
  cases found : lastContent? files file.path with
  | none => exact absurd rfl (lastContent?_eq_none_iff.1 found file member)
  | some content =>
      refine ⟨content, rfl, ?_⟩
      rw [at?_putFiles, found]
      rfl

end FileTree

/-! ## Written files -/

namespace FileTree

/-- Every path of the files leads right into one place, and none to a folder. -/
structure Admits (tree : FileTree) (folder : String) (dir : Place) (files : List GeneratedFile) :
    Prop where
  leads : ∀ file ∈ files, tree.locate (joinPath folder file.path) = .ok (dir ++ [file.path])
  free : ∀ file ∈ files, tree.at? (dir ++ [file.path]) ≠ some .folder

namespace Admits

variable {tree : FileTree} {folder : String} {dir : Place} {files : List GeneratedFile}

theorem nil (tree : FileTree) (folder : String) (dir : Place) : Admits tree folder dir [] :=
  ⟨fun _ member => absurd member List.not_mem_nil, fun _ member => absurd member List.not_mem_nil⟩

theorem tail {file : GeneratedFile} {rest : List GeneratedFile}
    (admits : Admits tree folder dir (file :: rest)) (content : Content) :
    Admits (tree.put (dir ++ [file.path]) (.file content)) folder dir rest := by
  have kept : Keeps tree (tree.put (dir ++ [file.path]) (.file content)) :=
    Keeps.put (admits.free file List.mem_cons_self) _
  exact ⟨fun later member => kept.locate (admits.leads later (List.mem_cons_of_mem file member)),
    fun later member =>
      at?_put_file_ne_folder (admits.free later (List.mem_cons_of_mem file member))⟩

/-- Admitted files are written without a fault. -/
theorem writeFiles_eq (admits : Admits tree folder dir files) :
    writeFiles folder tree files = (putFiles dir tree files, .ok ()) := by
  induction files generalizing tree with
  | nil => rfl
  | cons file rest ih =>
      rw [writeFiles]
      simp only [writeText_of_locate (admits.leads file List.mem_cons_self)
        (admits.free file List.mem_cons_self)]
      exact ih (admits.tail (.text file.content))

theorem keeps (admits : Admits tree folder dir files) : Keeps tree (putFiles dir tree files) :=
  Keeps.putFiles admits.free

/-- Once the files are there, they are admitted still. -/
theorem again (admits : Admits tree folder dir files) :
    Admits (putFiles dir tree files) folder dir files := by
  refine ⟨fun file member => admits.keeps.locate (admits.leads file member), ?_⟩
  intro file member
  rw [at?_putFiles]
  cases found : lastContent? files file.path with
  | none => exact absurd rfl (lastContent?_eq_none_iff.1 found file member)
  | some content => rintro ⟨⟩

end Admits

variable {tree after : FileTree} {folder : String} {dir : Place} {files : List GeneratedFile}

theorem writeFiles_cons_eq_ok {file : GeneratedFile} {rest : List GeneratedFile}
    (written : writeFiles folder tree (file :: rest) = (after, .ok ())) :
    ∃ next, tree.writeText (joinPath folder file.path) file.content = .ok next ∧
      writeFiles folder next rest = (after, .ok ()) := by
  rw [writeFiles] at written
  cases done : tree.writeText (joinPath folder file.path) file.content with
  | error fault =>
      simp only [done] at written
      cases written
  | ok next =>
      simp only [done] at written
      exact ⟨next, rfl, written⟩

/-- Files that are written into a folder are admitted by it. -/
theorem admits_of_writeFiles (led : tree.folderPlace folder = .ok dir)
    (isFolder : tree.at? dir = some .folder) (areNames : ∀ file ∈ files, IsFileName file.path)
    (written : writeFiles folder tree files = (after, .ok ())) : Admits tree folder dir files := by
  induction files generalizing tree with
  | nil => exact Admits.nil tree folder dir
  | cons file rest ih =>
      obtain ⟨next, first, later⟩ := writeFiles_cons_eq_ok written
      obtain ⟨place, leads, notFolder, rfl⟩ := writeText_eq_ok first
      obtain ⟨found, foundLed, -, rfl⟩ :=
        exists_folder_of_locate (areNames file List.mem_cons_self) leads
      obtain rfl := Except.ok.inj (led.symm.trans foundLed)
      have kept := Keeps.put notFolder (.file (.text file.content))
      have restNames : ∀ other ∈ rest, IsFileName other.path :=
        fun other member => areNames other (List.mem_cons_of_mem file member)
      have admits := ih (kept.folderPlace led) (kept.folder isFolder) restNames later
      refine ⟨?_, ?_⟩ <;> intro other member <;> rcases List.mem_cons.1 member with rfl | inRest
      · exact leads
      · -- Whether a name leads into a folder does not depend on the files that are there.
        have inNext := admits.leads other inRest
        rw [locate_joinPath (restNames other inRest) (kept.folderPlace led)
          (kept.folder isFolder)] at inNext
        rw [locate_joinPath (restNames other inRest) led isFolder]
        exact inNext
      · exact notFolder
      · exact fun inTree => admits.free other inRest (kept.folder inTree)

/-- What writing files comes to: all of them are admitted, and they are put one after the other. -/
theorem writeFiles_eq_ok_iff (areNames : ∀ file ∈ files, IsFileName file.path) :
    writeFiles folder tree files = (after, .ok ()) ↔
      ∃ dir, Admits tree folder dir files ∧ after = putFiles dir tree files := by
  constructor
  · intro written
    cases files with
    | nil =>
        cases written
        exact ⟨[], Admits.nil tree folder [], rfl⟩
    | cons file rest =>
        obtain ⟨next, first, -⟩ := writeFiles_cons_eq_ok written
        obtain ⟨place, leads, -, -⟩ := writeText_eq_ok first
        obtain ⟨dir, led, isFolder, -⟩ :=
          exists_folder_of_locate (areNames file List.mem_cons_self) leads
        have admits := admits_of_writeFiles led isFolder areNames written
        rw [admits.writeFiles_eq] at written
        exact ⟨dir, admits, (Prod.ext_iff.1 written).1.symm⟩
  · rintro ⟨dir, admits, rfl⟩
    exact admits.writeFiles_eq

end FileTree

namespace Project

variable {p : Project} {folder : String} {tree after : FileTree}

theorem write_eq_ok_iff (areNames : ∀ path ∈ p.paths, IsFileName path) :
    p.write folder tree = (after, .ok ()) ↔
      ∃ mid dir, tree.createFolders folder = .ok mid ∧ mid.Admits folder dir p.files ∧
        after = mid.putFiles dir p.files := by
  have fileNames : ∀ file ∈ p.files, IsFileName file.path :=
    fun file member => areNames file.path (List.mem_map_of_mem member)
  rw [write]
  cases tree.createFolders folder with
  | error fault => simp
  | ok mid =>
      simp only [FileTree.writeFiles_eq_ok_iff fileNames]
      simp

/-- The last file of each path of a written project is read back. -/
theorem readText_write_last (areNames : ∀ path ∈ p.paths, IsFileName path)
    (written : p.write folder tree = (after, .ok ())) {path : String} (member : path ∈ p.paths) :
    ∃ content, lastContent? p.files path = some content ∧
      after.readText (joinPath folder path) = .ok content := by
  obtain ⟨mid, dir, -, admits, rfl⟩ := (write_eq_ok_iff areNames).1 written
  obtain ⟨file, inFiles, rfl⟩ := List.mem_map.1 member
  cases found : lastContent? p.files file.path with
  | none => exact absurd rfl (lastContent?_eq_none_iff.1 found file inFiles)
  | some content =>
      refine ⟨content, rfl, ?_⟩
      rw [FileTree.readText_of_locate (admits.again.leads file inFiles)]
      refine FileTree.textAt_of_file ?_
      rw [FileTree.at?_putFiles, found]
      rfl

/-- Where no path comes twice, the last file of a path is the first one. -/
theorem lastContent?_eq_get? (distinct : p.paths.Nodup) (path : String) :
    lastContent? p.files path = p.get? path := by
  obtain ⟨files⟩ := p
  rw [get?]
  induction files with
  | nil => rfl
  | cons file rest ih =>
      obtain ⟨alone, restDistinct⟩ := List.nodup_cons.1 distinct
      rw [lastContent?_cons, List.find?_cons]
      by_cases same : file.path = path
      · have noLater : lastContent? rest path = none :=
          lastContent?_eq_none_iff.2 fun later member samePath =>
            alone (List.mem_map.2 ⟨later, member, samePath.trans same.symm⟩)
        rw [noLater, if_pos same, beq_iff_eq.2 same]
        rfl
      · rw [ih restDistinct, if_neg same, Option.or_none, beq_false_of_ne same]

/-- Where no path comes twice, a project that is written is read back file by file. -/
theorem readText_write (distinct : p.paths.Nodup) (areNames : ∀ path ∈ p.paths, IsFileName path)
    (written : p.write folder tree = (after, .ok ())) :
    ∀ path ∈ p.paths, ∃ content, p.get? path = some content ∧
      after.readText (joinPath folder path) = .ok content := by
  intro path member
  rw [← lastContent?_eq_get? distinct]
  exact readText_write_last areNames written member

end Project

end ComponentGen
