import ComponentGen.Proofs.Positions
import ComponentGen.Proofs.Resolved.Preorder
/-!
# Positions in a resolved tree

A position is a list of child indices, read from the root. The nodes that the pre-order visit lists
with their positions are exactly those that are reached by descending along a position, and the
positions are listed in lexicographic order.
-/

namespace ComponentGen.ResolvedNode

/-- The node that is reached by descending along child indices. -/
def nodeAt? (n : ResolvedNode) : List Nat → Option ResolvedNode
  | [] => some n
  | i :: rest => n.childNodes[i]?.bind fun child => child.nodeAt? rest

theorem nodeAt?_cons (n : ResolvedNode) (i : Nat) (rest : List Nat) :
    n.nodeAt? (i :: rest) = n.childNodes[i]?.bind fun child => child.nodeAt? rest := rfl

theorem locatedList_eq_flatMap (path : List Nat) (i : Nat) (nodes : List ResolvedNode) :
    locatedList path i nodes =
      (nodes.zipIdx i).flatMap fun child => located (path ++ [child.2]) child.1 := by
  induction nodes generalizing i with
  | nil => rfl
  | cons node rest ih => rw [locatedList, ih, List.zipIdx_cons, List.flatMap_cons]

/-- A node is located first, then its nested nodes by their indices, whichever shape they have. -/
theorem located_eq_flatMap (path : List Nat) (n : ResolvedNode) :
    located path n = (path, n) ::
      n.childNodes.zipIdx.flatMap fun child => located (path ++ [child.2]) child.1 := by
  rw [located_eq, childNodes]
  cases n.children with
  | absent => rfl
  | single node =>
      rw [locatedChildren]
      exact congrArg _ (List.append_nil _).symm
  | list nodes => exact congrArg _ (locatedList_eq_flatMap path 0 nodes)

/-- Where the visit starts is put in front of all positions. -/
theorem located_eq_map (path : List Nat) (n : ResolvedNode) :
    located path n = (located [] n).map fun place => (path ++ place.1, place.2) := by
  induction n using ResolvedNode.nested generalizing path with
  | node n ih =>
      rw [located_eq_flatMap, located_eq_flatMap, List.map_cons, List.append_nil, List.map_flatMap]
      refine congrArg _ (List.flatMap_congr ?_)
      rintro ⟨child, i⟩ inChildren
      have inside := List.fst_mem_of_mem_zipIdx inChildren
      rw [ih child inside, ih child inside ([] ++ [i]), List.map_map]
      simp

theorem nodeAt?_eq_partAt? (n : ResolvedNode) (path : List Nat) :
    n.nodeAt? path = partAt? childNodes n path := by
  induction path generalizing n with
  | nil => rfl
  | cons i rest ih => rw [nodeAt?_cons, partAt?, funext ih]

theorem locates_located : Locates childNodes (fun n => [n]) (located []) where
  nested _ step n := by
    induction n using ResolvedNode.nested with
    | node n ih => exact step n ih
  locate_eq n := by
    rw [located_eq_flatMap]
    exact congrArg _ (List.flatMap_congr fun child _ => located_eq_map ([] ++ [child.2]) child.1)

/-- The visit from the root lists a node with a position exactly when the position leads to it. -/
theorem mem_located_nil_iff {root node : ResolvedNode} {path : List Nat} :
    (path, node) ∈ root.located [] ↔ root.nodeAt? path = some node := by
  rw [locates_located.mem_iff, nodeAt?_eq_partAt?]
  simp only [List.mem_singleton, exists_eq_right']

/-- The visit lists positions in strictly ascending lexicographic order. -/
theorem pairwise_position_lt (n : ResolvedNode) :
    (n.located []).Pairwise fun first second => first.1 < second.1 := by
  have single (node : ResolvedNode) : [node].Pairwise fun _ _ => False := List.pairwise_singleton _ _
  exact (locates_located.pairwise single n).imp fun earlier => by simpa using earlier

end ComponentGen.ResolvedNode
