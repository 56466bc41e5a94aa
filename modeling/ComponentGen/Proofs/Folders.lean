import ComponentGen.Proofs.FileTree
/-!
# Created folders

Making sure that there are folders along a path puts folders where there was nothing, and that is
all. Once they are there, making sure of them again changes nothing.
-/

namespace ComponentGen

namespace FileTree

variable {tree inner mid after : FileTree} {place next : Place}

/-! ## Added folders -/

/-- The second tree is the first with some folders put where there was nothing. -/
inductive AddsFolders : FileTree → FileTree → Prop where
  | refl (tree : FileTree) : AddsFolders tree tree
  | put {tree mid : FileTree} {place : Place} (free : tree.at? place = none)
      (later : AddsFolders (tree.put place .folder) mid) : AddsFolders tree mid

namespace AddsFolders

theorem trans (first : AddsFolders tree mid) (second : AddsFolders mid after) :
    AddsFolders tree after := by
  induction first with
  | refl => exact second
  | put free _ ih => exact .put free (ih second)

theorem keeps (adds : AddsFolders tree mid) : Keeps tree mid := by
  induction adds with
  | refl tree => exact Keeps.refl tree
  | put free _ ih => exact (Keeps.put (by rw [free]; rintro ⟨⟩) _).trans ih

/-- What there is now was there before, or is a new folder. -/
theorem at?_cases (adds : AddsFolders tree mid) (place : Place) :
    mid.at? place = tree.at? place ∨ tree.at? place = none ∧ mid.at? place = some .folder := by
  induction adds with
  | refl => exact .inl rfl
  | @put tree mid added free later ih =>
      by_cases here : place = added
      · refine .inr ⟨here ▸ free, later.keeps.folder ?_⟩
        rw [at?_put, if_pos here, ite_self]
      · rwa [at?_put_of_ne here] at ih

end AddsFolders

/-! ## Making sure of folders -/

theorem ensureFolder_adds (ensured : tree.ensureFolder place = .ok mid) :
    AddsFolders tree mid ∧ mid.at? place = some .folder := by
  rw [ensureFolder] at ensured
  split at ensured
  · next free =>
      obtain rfl := Except.ok.inj ensured
      exact ⟨.put free (.refl _), by rw [at?_put, if_pos rfl, ite_self]⟩
  · next isFolder =>
      obtain rfl := Except.ok.inj ensured
      exact ⟨.refl _, isFolder⟩
  · cases ensured

theorem ensureFolder_of_folder (isFolder : tree.at? place = some .folder) :
    tree.ensureFolder place = .ok tree := by
  rw [ensureFolder, isFolder]

theorem enterFolders_cons (segment : String) (rest : List String) :
    tree.enterFolders place (segment :: rest) =
      tree.walk place segment >>= fun next =>
        tree.ensureFolder next >>= fun inner => inner.enterFolders next rest := by
  rw [enterFolders, List.foldlM_cons, enterFolder]
  cases tree.walk place segment with
  | error fault => rfl
  | ok next =>
      simp only [bind, Except.bind]
      cases tree.ensureFolder next <;> rfl

theorem enterFolders_cons_eq_ok {segment : String} {rest : List String}
    (entered : tree.enterFolders place (segment :: rest) = .ok mid) :
    ∃ next inner, tree.walk place segment = .ok next ∧ tree.ensureFolder next = .ok inner ∧
      inner.enterFolders next rest = .ok mid := by
  rw [enterFolders_cons] at entered
  obtain ⟨next, walked, onward⟩ := exists_of_bind_eq_ok entered
  obtain ⟨inner, ensured, later⟩ := exists_of_bind_eq_ok onward
  exact ⟨next, inner, walked, ensured, later⟩

theorem enterFolders_adds {segments : List String}
    (entered : tree.enterFolders place segments = .ok mid) : AddsFolders tree mid := by
  induction segments generalizing tree place with
  | nil =>
      obtain rfl := Except.ok.inj entered
      exact .refl _
  | cons segment rest ih =>
      obtain ⟨next, inner, -, ensured, later⟩ := enterFolders_cons_eq_ok entered
      exact (ensureFolder_adds ensured).1.trans (ih later)

/-- Where all the folders are there still, entering them again adds none. -/
theorem enterFolders_again {segments : List String}
    (entered : tree.enterFolders place segments = .ok mid) (kept : Keeps mid after) :
    after.enterFolders place segments = .ok after := by
  induction segments generalizing tree place with
  | nil => rfl
  | cons segment rest ih =>
      obtain ⟨next, inner, walked, ensured, later⟩ := enterFolders_cons_eq_ok entered
      obtain ⟨adds, isFolder⟩ := ensureFolder_adds ensured
      have innerKept : Keeps inner after := (enterFolders_adds later).keeps.trans kept
      have same := (adds.keeps.trans innerKept).walk_eq (at?_of_walk walked) segment
      rw [enterFolders_cons, same, walked]
      simp only [bind, Except.bind, ensureFolder_of_folder (innerKept.folder isFolder)]
      exact ih later

theorem checkFolder_eq_ok_iff {path : String} :
    tree.checkFolder path = .ok () ↔
      ∃ place, tree.locate path = .ok place ∧ tree.at? place = some .folder := by
  rw [checkFolder]
  cases tree.locate path with
  | error fault => simp [bind, Except.bind]
  | ok place =>
      simp only [bind, Except.bind, Except.ok.injEq, exists_eq_left']
      cases tree.at? place with
      | none => simp
      | some entry => cases entry <;> simp

/-- What creating folders comes to. -/
theorem createFolders_eq_ok_iff {path : String} (nonempty : path ≠ "") :
    tree.createFolders path = .ok mid ↔ isUsable path = true ∧
      if endsInDot path then
        tree.enterFolders (tree.start path) (steps path).dropLast = .ok mid ∧
          mid.checkFolder path = .ok ()
      else tree.enterFolders (tree.start path) (steps path) = .ok mid := by
  rw [createFolders, if_neg nonempty]
  cases isUsable path with
  | false => simp
  | true =>
      cases endsInDot path with
      | false => simp
      | true =>
          simp only [Bool.not_true, Bool.false_eq_true, if_false, if_true, true_and]
          cases tree.enterFolders (tree.start path) (steps path).dropLast with
          | error fault => simp [bind, Except.bind]
          | ok made =>
              simp only [bind, Except.bind]
              cases checked : made.checkFolder path with
              | error fault =>
                  simp only [reduceCtorEq, Except.ok.injEq, false_iff]
                  rintro ⟨rfl, isFolder⟩
                  rw [checked] at isFolder
                  cases isFolder
              | ok =>
                  simp only [pure, Except.pure, Except.ok.injEq]
                  refine ⟨?_, And.left⟩
                  rintro rfl
                  exact ⟨rfl, checked⟩

/-- Creating folders adds the folders that are missing, and nothing else. -/
theorem createFolders_adds {path : String} (created : tree.createFolders path = .ok mid) :
    AddsFolders tree mid := by
  by_cases nonempty : path = ""
  · rw [createFolders, if_pos nonempty] at created
    obtain rfl := Except.ok.inj created
    exact .refl _
  · obtain ⟨-, entered⟩ := (createFolders_eq_ok_iff nonempty).1 created
    split at entered
    · exact enterFolders_adds entered.1
    · exact enterFolders_adds entered

/-- Creating folders that are there still changes nothing. -/
theorem createFolders_again {path : String} (created : tree.createFolders path = .ok mid)
    (kept : Keeps mid after) : after.createFolders path = .ok after := by
  by_cases nonempty : path = ""
  · rw [createFolders, if_pos nonempty]
  · have allKept : Keeps tree after := (createFolders_adds created).keeps.trans kept
    obtain ⟨usable, entered⟩ := (createFolders_eq_ok_iff nonempty).1 created
    refine (createFolders_eq_ok_iff nonempty).2 ⟨usable, ?_⟩
    rw [allKept.start]
    split at entered
    · next isDot =>
        rw [if_pos isDot]
        obtain ⟨place, led, isFolder⟩ := checkFolder_eq_ok_iff.1 entered.2
        exact ⟨enterFolders_again entered.1 kept,
          checkFolder_eq_ok_iff.2 ⟨place, kept.locate led, kept.folder isFolder⟩⟩
    · next notDot =>
        rw [if_neg notDot]
        exact enterFolders_again entered kept

end FileTree

end ComponentGen
