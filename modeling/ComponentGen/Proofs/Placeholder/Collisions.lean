import ComponentGen.Proofs.Placeholder.CollisionLog
/-!
# Collisions under both policies

The strict policy stops at the first collision, which is the first one that the other policy logs;
without a collision both build the same index. So each interface has one index, and a policy only
decides whether its collisions are a fault.
-/

namespace ComponentGen

namespace Interface

/-- The index of an interface, in which a later field keeps a form that two fields claim. -/
def index (i : Interface) : PlaceholderIndex :=
  match PlaceholderIndex.build i .lastWriteWins with
  | .ok index => index
  | .error _ => .empty

/-- What keeps the index of an interface from being built under a policy. -/
def fault? (i : Interface) : CollisionPolicy → Option CollisionError
  | .lastWriteWins => none
  | .strict => i.index.collisions.head?.map (CollisionError.mk i.name)

theorem index_eq (i : Interface) :
    i.index = ⟨.ofList i.registrations, collisionLog i.registrations⟩ := by
  rw [index, PlaceholderIndex.build_eq]
  rfl

theorem get?_index (i : Interface) (surface : String) :
    i.index.get? surface = lastField? i.registrations surface := by
  rw [index_eq, PlaceholderIndex.get?, OrderedMap.get?_ofList, lastField?]

/-- Whatever the policy, there is one index to be built. -/
theorem build_eq (i : Interface) (policy : CollisionPolicy) :
    PlaceholderIndex.build i policy = outcome (i.fault? policy) i.index := by
  rw [PlaceholderIndex.build_eq, ← index_eq]
  cases policy with
  | lastWriteWins => rfl
  | strict => rw [fault?, index_eq]; rfl

theorem build_of_fault?_eq_none {i : Interface} {policy : CollisionPolicy}
    (faultless : i.fault? policy = none) : PlaceholderIndex.build i policy = .ok i.index := by
  rw [build_eq, faultless, outcome_none]

/-- Under the strict policy, the fault is a collision of the index. -/
theorem mem_collisions_of_fault? {i : Interface} {policy : CollisionPolicy} {e : CollisionError}
    (fault : i.fault? policy = some e) :
    e.component = i.name ∧ e.collision ∈ i.index.collisions := by
  cases policy with
  | lastWriteWins => cases fault
  | strict =>
      obtain ⟨collision, first, rfl⟩ := Option.map_eq_some_iff.1 fault
      exact ⟨rfl, List.mem_of_mem_head? first⟩

theorem fault?_strict_eq_none_iff {i : Interface} :
    i.fault? .strict = none ↔ i.index.collisions = [] := by
  rw [fault?, Option.map_eq_none_iff, List.head?_eq_none_iff]

/-- Under the strict policy, building fails exactly on interfaces with collisions. -/
theorem exists_build_strict_eq_error_iff {i : Interface} :
    (∃ error, PlaceholderIndex.build i .strict = .error error) ↔ i.index.collisions ≠ [] := by
  rw [build_eq, ne_eq, ← fault?_strict_eq_none_iff]
  cases i.fault? .strict <;> simp

end Interface

end ComponentGen
