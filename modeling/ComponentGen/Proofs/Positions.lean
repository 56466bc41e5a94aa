import ComponentGen.Proofs.Induction
import Mathlib.Data.List.Basic
/-!
# Positions in trees

JSON values, component trees and resolved trees have direct parts in an order. A position is a list
of indices of direct parts, read from the root. A list that gives what a tree holds by itself in front
of what its parts hold, with the positions of the parts, has everything that stands at some position,
in lexicographic order.
-/

namespace ComponentGen

variable {α β : Type}

/-- What is reached by descending along indices of direct parts. -/
def partAt? (parts : α → List α) (tree : α) : List Nat → Option α
  | [] => some tree
  | i :: rest => (parts tree)[i]?.bind fun part => partAt? parts part rest

/-- What is found in a part, seen from the tree in which it is the part with the given index. -/
def below (i : Nat) (found : List (List Nat × β)) : List (List Nat × β) :=
  found.map fun entry => (i :: entry.1, entry.2)

theorem mem_below_iff {i : Nat} {found : List (List Nat × β)} {path : List Nat} {b : β} :
    (path, b) ∈ below i found ↔ ∃ rest, path = i :: rest ∧ (rest, b) ∈ found := by
  rw [below, List.mem_map]
  constructor
  · rintro ⟨⟨rest, _⟩, inside, same⟩
    obtain ⟨rfl, rfl⟩ := Prod.ext_iff.1 same
    exact ⟨rest, rfl, inside⟩
  · rintro ⟨rest, rfl, inside⟩
    exact ⟨(rest, b), inside, rfl⟩

/-- A way to list what all parts of a tree hold by themselves, with the positions of the parts: first
what the tree itself holds, then what is listed for its direct parts. -/
structure Locates (parts : α → List α) (own : α → List β) (locate : α → List (List Nat × β)) :
    Prop where
  nested : ∀ motive : α → Prop, (∀ tree, (∀ part ∈ parts tree, motive part) → motive tree) →
    ∀ tree, motive tree
  locate_eq : ∀ tree, locate tree = (own tree).map (([], ·)) ++
    (parts tree).zipIdx.flatMap fun part => below part.2 (locate part.1)

namespace Locates

variable {parts : α → List α} {own : α → List β} {locate : α → List (List Nat × β)}
  (locates : Locates parts own locate)

include locates

/-- What is listed is what stands at some position. -/
theorem mem_iff {tree : α} {path : List Nat} {b : β} :
    (path, b) ∈ locate tree ↔ ∃ part, partAt? parts tree path = some part ∧ b ∈ own part := by
  induction path generalizing tree with
  | nil =>
      rw [locates.locate_eq, List.mem_append, List.mem_flatMap]
      constructor
      · rintro (here | ⟨part, -, inside⟩)
        · obtain ⟨_, isOwn, same⟩ := List.mem_map.1 here
          obtain rfl := (Prod.ext_iff.1 same).2
          exact ⟨tree, rfl, isOwn⟩
        · obtain ⟨rest, absurdPath, -⟩ := mem_below_iff.1 inside
          cases absurdPath
      · rintro ⟨_, ⟨⟩, isOwn⟩
        exact .inl (List.mem_map_of_mem isOwn)
  | cons i rest ih =>
      rw [locates.locate_eq, List.mem_append, List.mem_flatMap]
      constructor
      · rintro (here | ⟨⟨part, k⟩, isPart, inside⟩)
        · obtain ⟨_, -, same⟩ := List.mem_map.1 here
          cases (Prod.ext_iff.1 same).1
        · obtain ⟨_, samePath, found⟩ := mem_below_iff.1 inside
          obtain ⟨rfl, rfl⟩ := List.cons.inj samePath
          obtain ⟨target, reached, isOwn⟩ := ih.1 found
          have here : (parts tree)[i]? = some part := List.mem_zipIdx_iff_getElem?.1 isPart
          exact ⟨target, by rw [partAt?, here]; exact reached, isOwn⟩
      · rintro ⟨target, reached, isOwn⟩
        obtain ⟨part, here, reached⟩ := Option.bind_eq_some_iff.1 reached
        exact .inr ⟨(part, i), List.mem_zipIdx_iff_getElem?.2 here,
          mem_below_iff.2 ⟨rest, rfl, ih.2 ⟨target, reached, isOwn⟩⟩⟩

/-- What is listed ascends by positions, and as given within one part. -/
theorem pairwise {inOrder : β → β → Prop} (ownInOrder : ∀ tree, (own tree).Pairwise inOrder)
    (tree : α) : (locate tree).Pairwise fun first second =>
      first.1 < second.1 ∨ first.1 = second.1 ∧ inOrder first.2 second.2 := by
  induction tree using locates.nested with
  | _ tree ih =>
      rw [locates.locate_eq, List.pairwise_append, List.pairwise_map, List.pairwise_flatMap]
      refine ⟨(ownInOrder tree).imp fun earlier => .inr ⟨rfl, earlier⟩, ⟨?_, ?_⟩, ?_⟩
      · rintro ⟨part, i⟩ isPart
        rw [below, List.pairwise_map]
        refine (ih part (List.fst_mem_of_mem_zipIdx isPart)).imp ?_
        rintro ⟨path, b⟩ ⟨otherPath, c⟩ (earlier | ⟨rfl, earlier⟩)
        · exact .inl (List.cons_lt_cons_iff.2 (.inr ⟨rfl, earlier⟩))
        · exact .inr ⟨rfl, earlier⟩
      · refine (pairwise_zipIdx (parts tree)).imp ?_
        rintro ⟨part, i⟩ ⟨other, k⟩ earlier ⟨path, b⟩ inside ⟨otherPath, c⟩ inOther
        obtain ⟨rest, rfl, -⟩ := mem_below_iff.1 inside
        obtain ⟨otherRest, rfl, -⟩ := mem_below_iff.1 inOther
        exact .inl (List.cons_lt_cons_iff.2 (.inl earlier))
      · rintro ⟨path, b⟩ here ⟨otherPath, c⟩ inside
        obtain ⟨_, -, same⟩ := List.mem_map.1 here
        obtain ⟨⟨part, i⟩, -, inside⟩ := List.mem_flatMap.1 inside
        obtain ⟨rest, rfl, -⟩ := mem_below_iff.1 inside
        obtain rfl := (Prod.ext_iff.1 same).1
        exact .inl (List.nil_lt_cons i rest)

/-- The positions left out. -/
theorem map_snd (tree : α) :
    (locate tree).map Prod.snd =
      own tree ++ (parts tree).flatMap fun part => (locate part).map Prod.snd := by
  conv_lhs => rw [locates.locate_eq, List.map_append, List.map_map, List.map_flatMap]
  refine congrArg₂ _ (List.map_id _) ?_
  calc _ = (parts tree).zipIdx.flatMap fun part => (locate part.1).map Prod.snd := by
          refine List.flatMap_congr fun part _ => ?_
          rw [below, List.map_map]
          rfl
    _ = ((parts tree).zipIdx.map Prod.fst).flatMap fun part => (locate part).map Prod.snd := by
          rw [List.flatMap_map]
    _ = _ := by rw [List.zipIdx_map_fst]

end Locates

end ComponentGen
