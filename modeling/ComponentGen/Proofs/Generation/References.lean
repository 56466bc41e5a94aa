import ComponentGen.Proofs.Component.Leaves
import ComponentGen.Proofs.Generation.Strict
/-!
# Counted references

A check reports how many references the resolved tree of each component has. They are what the
strings of the definition stand for, one for each place of a string that stands for a field, so the
count is a count of places in the definition. No string of an overlay is among them.
-/

namespace ComponentGen

/-- The references of a component are those that the strings of its tree stand for, place by place. -/
theorem ResolvedNode.references_eq_leaves (n : Node) (i : Interface) (index : PlaceholderIndex) :
    (ofComponent n i index).references =
      n.leaves.filterMap fun leaf => index.resolve? leaf.2.2 := by
  rw [references_ofComponent, ← n.map_leaves, List.filterMap_map]
  rfl

namespace Generator

/-- The index that a check looks placeholders up in. -/
theorem exists_build_found (g : Generator) (d : Definition) :
    ∃ index, PlaceholderIndex.build (g.interfaces.getOrEmpty d.name) .lastWriteWins = .ok index ∧
      (g.found d).references =
        (d.node.leaves.filter fun leaf => (index.resolve? leaf.2.2).isSome).length := by
  refine ⟨_, Interface.build_eq _ .lastWriteWins, ?_⟩
  rw [found, root, ResolvedNode.references_eq_leaves, List.length_filterMap_eq_countP,
    List.countP_eq_length_filter]

/-- The strings of a tree are listed by their places in the order in which a tree is read, overlays
left out, and every place once. The references of the resolved tree are what the listed strings stand
for in the index. So a check reports for each definition how many of its listed strings stand for a
declared field. -/
theorem references_count_leaves (n : Node) (g : Generator) (definitions : List Definition) :
    (∀ path inside s, (path, inside, s) ∈ n.leaves ↔
      ∃ node, n.nodeAt? path = some node ∧ node.contents.valueAt? inside = some (.string s)) ∧
    n.leaves.Pairwise (fun first second =>
      first.1 < second.1 ∨ first.1 = second.1 ∧ first.2.1 < second.2.1) ∧
    n.withoutSamples.leaves = n.leaves ∧
    (∀ i index, (ResolvedNode.ofComponent n i index).references =
      n.leaves.filterMap fun leaf => index.resolve? leaf.2.2) ∧
    ∃ reports, g.check definitions = .ok reports ∧
      List.Forall₂ (fun d report => report.name = d.name ∧
        ∃ index,
          PlaceholderIndex.build (g.interfaces.getOrEmpty d.name) .lastWriteWins = .ok index ∧
          report.references =
            (d.node.leaves.filter fun leaf => (index.resolve? leaf.2.2).isSome).length)
        definitions reports := by
  refine ⟨fun _ _ _ => Node.mem_leaves_iff, n.pairwise_leaves, n.leaves_withoutSamples,
    ResolvedNode.references_eq_leaves n, definitions.map g.found, g.check_eq definitions, ?_⟩
  rw [List.forall₂_map_right_iff, List.forall₂_same]
  exact fun d _ => ⟨rfl, g.exists_build_found d⟩

end Generator

end ComponentGen
