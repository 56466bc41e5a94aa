import ComponentGen.Component.Overlay
import ComponentGen.Proofs.Induction
import ComponentGen.Proofs.OrderedMap
/-!
# Merged trees

Merging follows the nodes that a tree shows: below a node these are the children of its overlay,
if that has any, and the node's own children otherwise. No overlay is left, so there is nothing to
merge a second time, and the trees that merging leaves as they are are those without overlays.
-/

namespace ComponentGen

namespace Overlay

variable {α : Type}

/-- The styles of an overlay; none when they are left out. -/
def styleMap : Overlay α → OrderedMap Json
  | .absent => .empty
  | .present styleMap _ _ => styleMap.getD .empty

/-- The data of an overlay; none when they are left out. -/
def data : Overlay α → OrderedMap Json
  | .absent => .empty
  | .present _ data _ => data.getD .empty

/-- The children that an overlay brings along. -/
def children : Overlay α → Children α
  | absent => .absent
  | present _ _ children => children

end Overlay

/-- A map with another one laid over it: the keys below in their order, with the value above where
there is one, and behind them the other keys above in theirs. -/
structure IsLaidOver (above below merged : OrderedMap Json) : Prop where
  keys : merged.keys = below.keys ++ above.keys.filter (· ∉ below.keys)
  values : ∀ key, merged.get? key = (above.get? key).or (below.get? key)

theorem isLaidOver_insertAll (above below : OrderedMap Json) :
    IsLaidOver above below (below.insertAll above.entries) :=
  ⟨below.keys_insertAll above, below.get?_insertAll above⟩

namespace Node

/-- The children that a node shows: those of its overlay, if it has any, and else its own. -/
def shownChildren (n : Node) : Children Node :=
  match n.sample with
  | .present _ _ (.single node) => .single node
  | .present _ _ (.list nodes) => .list nodes
  | _ => n.children

/-- The second tree shows the first one with its samples. At each node the type and the props are
those of the source, the overlay lies over its styles and data, and the children are those that it
shows. -/
inductive Shows : Node → Node → Prop
  | intro {source merged : Node} (shown : Node → Node) (type : merged.type = source.type)
      (props : merged.props = source.props)
      (styleMap : IsLaidOver source.sample.styleMap source.styleMap merged.styleMap)
      (data : IsLaidOver source.sample.data source.data merged.data)
      (children : merged.children = source.shownChildren.map shown)
      (below : ∀ child ∈ source.shownChildren.toList, Shows child (shown child)) :
      Shows source merged

theorem sizeOf_shownChildren_lt (n : Node) : sizeOf n.shownChildren < sizeOf n := by
  obtain ⟨type, props, styleMap, data, children, sample⟩ := n
  rw [mk.sizeOf_spec, shownChildren]
  split
  all_goals
    simp_all only [Overlay.present.sizeOf_spec]
    omega

/-- Induction over the nodes that a tree shows. -/
@[elab_as_elim]
theorem nestedShown {motive : Node → Prop}
    (node : ∀ n : Node, (∀ child ∈ n.shownChildren.toList, motive child) → motive n)
    (n : Node) : motive n :=
  node n fun child _ => nestedShown node child
termination_by sizeOf n
decreasing_by
  have inShown := Children.sizeOf_lt_of_mem ‹child ∈ n.shownChildren.toList›
  have shownInNode := sizeOf_shownChildren_lt n
  omega

/-- Merging a node merges the children that it shows. -/
theorem merge_eq (n : Node) :
    n.merge =
      { type := n.type, props := n.props
        styleMap := n.styleMap.insertAll n.sample.styleMap.entries
        data := n.data.insertAll n.sample.data.entries
        children := n.shownChildren.map merge } := by
  have overlay (below : OrderedMap Json) (above : Option (OrderedMap Json)) :
      overlayMap below above = below.insertAll (above.getD .empty).entries := by
    cases above <;> rfl
  obtain ⟨type, props, styleMap, data, children, sample⟩ := n
  cases sample with
  | absent =>
      rw [merge, mergeChildren_eq_map]
      rfl
  | present styleOver dataOver childrenOver =>
      cases childrenOver with
      | absent =>
          rw [merge, mergeChildren_eq_map, overlay, overlay]
          rfl
      | single node =>
          rw [merge, overlay, overlay]
          rfl
      | list nodes =>
          rw [merge, mergeList_eq_map, overlay, overlay]
          rfl

/-- No node of a merged tree has an overlay. -/
theorem sample_of_mem_preorder_merge {n m : Node} (member : m ∈ n.merge.preorder) :
    m.sample = .absent := by
  induction n using nestedShown with
  | node n ih =>
      rw [preorder_eq, List.mem_cons] at member
      rcases member with rfl | below
      · rw [merge_eq]
      · rw [childNodes, merge_eq, Children.toList_map, List.mem_flatMap] at below
        obtain ⟨_, isChild, inChild⟩ := below
        obtain ⟨child, shown, rfl⟩ := List.mem_map.1 isChild
        exact ih child shown inChild

/-- A tree without overlays is merged already. -/
theorem merge_of_samples_absent {n : Node} (absent : ∀ m ∈ n.preorder, m.sample = .absent) :
    n.merge = n := by
  induction n using nested with
  | node n ih =>
      have bare : n.sample = .absent := absent n (by rw [preorder_eq]; exact List.mem_cons_self)
      have childrenMerged : n.children.map merge = n.children := by
        calc n.children.map merge
            = n.children.map id := Children.map_congr fun child isChild =>
              ih child isChild fun m member => absent m (by
                rw [preorder_eq]
                exact List.mem_cons_of_mem n (List.mem_flatMap.2 ⟨child, isChild, member⟩))
          _ = n.children := n.children.map_id
      obtain ⟨type, props, styleMap, data, children, sample⟩ := n
      obtain rfl : sample = .absent := bare
      rw [merge, mergeChildren_eq_map, childrenMerged]

theorem shows_merge (n : Node) : Shows n n.merge := by
  induction n using nestedShown with
  | node n ih =>
      rw [merge_eq]
      exact .intro merge rfl rfl (isLaidOver_insertAll _ _) (isLaidOver_insertAll _ _) rfl ih

/-- Merging applies every overlay of a tree, also those of the children that come with one. Nothing
is left to be merged a second time, and only trees without overlays stay as they are. -/
theorem merge_applies_overlays (n : Node) :
    (∀ m ∈ n.merge.preorder, m.sample = .absent) ∧
      n.merge.merge = n.merge ∧
      (n.merge = n ↔ ∀ m ∈ n.preorder, m.sample = .absent) ∧
      Shows n n.merge := by
  have absent : ∀ m ∈ n.merge.preorder, m.sample = .absent := fun m member =>
    sample_of_mem_preorder_merge member
  refine ⟨absent, merge_of_samples_absent absent, ⟨fun merged => ?_, merge_of_samples_absent⟩,
    shows_merge n⟩
  rwa [merged] at absent

/-- A card whose overlay changes one style, adds another one in front of it, and replaces the single
child by a list of two, of which the second one has an overlay with a child of its own. -/
def overlaidCard : Node where
  type := "Container"
  styleMap := ⟨[("gap", .string "item-gap"), ("color", .string "red")], by decide⟩
  children := .single (.ofType "Text")
  sample := .present (some ⟨[("width", .string "4px"), ("gap", .string "2px")], by decide⟩) none
    (.list [.ofType "Image",
      { type := "Row", sample := .present none none (.single (.ofType "Icon")) }])

theorem merge_applies_overlays_overlaidCard :
    (∀ m ∈ overlaidCard.merge.preorder, m.sample = .absent) ∧
      overlaidCard.merge.preorder.map (·.type) = ["Container", "Image", "Row", "Icon"] ∧
      overlaidCard.merge ≠ overlaidCard ∧
      overlaidCard.merge.styleMap.keys = ["gap", "color", "width"] ∧
      overlaidCard.merge.styleMap.get? "gap" = some (.string "2px") := by
  obtain ⟨absent, -, unchanged, shows⟩ := merge_applies_overlays overlaidCard
  have changed : overlaidCard.merge ≠ overlaidCard := by
    intro same
    have noSample : overlaidCard.sample = .absent :=
      unchanged.1 same overlaidCard (by rw [preorder_eq]; exact List.mem_cons_self)
    cases noSample
  obtain ⟨-, -, -, styles, -, -, -⟩ := shows
  refine ⟨absent, rfl, changed, ?_, ?_⟩
  · rw [styles.keys]
    decide
  · rw [styles.values]
    rfl

end Node

end ComponentGen
