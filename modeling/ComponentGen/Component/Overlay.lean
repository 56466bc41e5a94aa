import ComponentGen.Component.Node
/-!
# Sample overlays

Applying the sample overlays of a tree. Styles and data are merged key by key with the overlay
winning, the overlay's children replace the node's own, and the result carries no overlay.
-/

namespace ComponentGen.Node

/-- Merge an optional overlay into a map, key by key. -/
def overlayMap (base : OrderedMap Json) : Option (OrderedMap Json) → OrderedMap Json
  | none => base
  | some above => base.insertAll above.entries

mutual

/-- Apply every overlay of the tree. -/
def merge : Node → Node
  | ⟨type, props, styleMap, data, children, .absent⟩ =>
    ⟨type, props, styleMap, data, mergeChildren children, .absent⟩
  | ⟨type, props, styleMap, data, children, .present styleOver dataOver .absent⟩ =>
    ⟨type, props, overlayMap styleMap styleOver, overlayMap data dataOver,
      mergeChildren children, .absent⟩
  | ⟨type, props, styleMap, data, _, .present styleOver dataOver (.single node)⟩ =>
    ⟨type, props, overlayMap styleMap styleOver, overlayMap data dataOver,
      .single (merge node), .absent⟩
  | ⟨type, props, styleMap, data, _, .present styleOver dataOver (.list nodes)⟩ =>
    ⟨type, props, overlayMap styleMap styleOver, overlayMap data dataOver,
      .list (mergeList nodes), .absent⟩

/-- Apply every overlay of the given children. -/
def mergeChildren : Children Node → Children Node
  | .absent => .absent
  | .single node => .single (merge node)
  | .list nodes => .list (mergeList nodes)

/-- Apply every overlay of a list of trees. -/
def mergeList : List Node → List Node
  | [] => []
  | node :: rest => merge node :: mergeList rest

end

/-- The overlays of a list of trees are applied one by one. -/
theorem mergeList_eq_map (nodes : List Node) : mergeList nodes = nodes.map merge := by
  induction nodes with
  | nil => rfl
  | cons node rest ih => simp [mergeList, ih]

/-- Applying the overlays of the children keeps their shape. -/
theorem mergeChildren_eq_map (c : Children Node) : mergeChildren c = c.map merge := by
  cases c with
  | absent => rfl
  | single node => rfl
  | list nodes => simp [mergeChildren, Children.map, mergeList_eq_map]

end ComponentGen.Node
