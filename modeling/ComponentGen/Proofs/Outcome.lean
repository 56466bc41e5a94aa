/-!
# Outcomes

A step of a computation ends in a fault or gives a result. When what it would give without a fault
is known, only the fault is left to ask for, and steps in a row end in the first of their faults.
A setting such as a policy may decide whether there is a fault but not what the result is; the
second part collects computations of that kind.
-/

namespace ComponentGen

variable {α β ε κ : Type}

/-- What succeeds in two steps succeeds in the first, and the second goes on from its result. -/
theorem exists_of_bind_eq_ok {first : Except ε α} {second : α → Except ε β} {result : β}
    (done : first >>= second = .ok result) :
    ∃ given, first = .ok given ∧ second given = .ok result := by
  cases first with
  | error fault => cases done
  | ok given => exact ⟨given, rfl, done⟩

theorem bind_eq_error_cases {first : Except ε α} {second : α → Except ε β} {fault : ε}
    (failed : first >>= second = .error fault) :
    first = .error fault ∨ ∃ given, first = .ok given ∧ second given = .error fault := by
  cases first with
  | error other => exact .inl (congrArg Except.error (Except.error.inj failed))
  | ok given => exact .inr ⟨given, rfl, failed⟩

/-- What several steps give is what some of them gives. -/
theorem exists_of_mem_mapM {step : α → Except ε β} {items : List α} {results : List β}
    (done : items.mapM step = .ok results) {result : β} (member : result ∈ results) :
    ∃ item ∈ items, step item = .ok result := by
  induction items generalizing results with
  | nil =>
      cases done
      cases member
  | cons item rest ih =>
      obtain ⟨first, isFirst, later⟩ := exists_of_bind_eq_ok (List.mapM_cons.symm.trans done)
      obtain ⟨others, areOthers, both⟩ := exists_of_bind_eq_ok later
      cases both
      rcases List.mem_cons.1 member with rfl | inOthers
      · exact ⟨item, List.mem_cons_self, isFirst⟩
      · obtain ⟨other, inRest, isOther⟩ := ih areOthers inOthers
        exact ⟨other, List.mem_cons_of_mem item inRest, isOther⟩

/-- The outcome of a step: its fault, if it has one, and its result otherwise. -/
def outcome (fault? : Option ε) (result : α) : Except ε α :=
  match fault? with
  | some fault => .error fault
  | none => .ok result

@[simp]
theorem outcome_none (result : α) : outcome (none : Option ε) result = .ok result := rfl

@[simp]
theorem outcome_some (fault : ε) (result : α) : outcome (some fault) result = .error fault := rfl

theorem outcome_eq_error_iff {fault? : Option ε} {result : α} {fault : ε} :
    outcome fault? result = .error fault ↔ fault? = some fault := by
  cases fault? <;> simp

theorem outcome_eq_ok_iff {fault? : Option ε} {result given : α} :
    outcome fault? result = .ok given ↔ fault? = none ∧ result = given := by
  cases fault? <;> simp

/-- Steps in a row end in the first fault. -/
theorem mapM_outcome (fault? : α → Option ε) (result : α → β) (items : List α) :
    (items.mapM fun item => outcome (fault? item) (result item)) =
      outcome (items.findSome? fault?) (items.map result) := by
  induction items with
  | nil => rfl
  | cons item rest ih =>
      rw [List.mapM_cons, ih, List.findSome?_cons, List.map_cons]
      cases fault? item with
      | some fault => rfl
      | none => cases rest.findSome? fault? <;> rfl

/-! ## Results that do not depend on a setting -/

/-- Under every setting that is fine the computation succeeds, each time with the same result. -/
def Agreed (fine : κ → Prop) (compute : κ → Except ε α) : Prop :=
  ∃ result, ∀ setting, fine setting → compute setting = .ok result

namespace Agreed

variable {fine : κ → Prop}

theorem pure (result : α) : Agreed fine fun _ => (Pure.pure result : Except ε α) :=
  ⟨result, fun _ _ => rfl⟩

theorem bind {compute : κ → Except ε α} {next : κ → α → Except ε β} (first : Agreed fine compute)
    (later : ∀ result, Agreed fine fun setting => next setting result) :
    Agreed fine fun setting => compute setting >>= next setting := by
  obtain ⟨result, given⟩ := first
  obtain ⟨final, last⟩ := later result
  refine ⟨final, fun setting isFine => ?_⟩
  calc compute setting >>= next setting
      = .ok result >>= next setting := by rw [given setting isFine]
    _ = .ok final := last setting isFine

theorem mapM {compute : κ → α → Except ε β} {items : List α}
    (each : ∀ item ∈ items, Agreed fine fun setting => compute setting item) :
    Agreed fine fun setting => items.mapM (compute setting) := by
  induction items with
  | nil => exact pure []
  | cons item rest ih =>
      have restAgreed := ih fun other member => each other (List.mem_cons_of_mem item member)
      simp only [List.mapM_cons]
      exact (each item List.mem_cons_self).bind fun first =>
        restAgreed.bind fun others => pure (first :: others)

end Agreed

end ComponentGen
