import ComponentGen.Proofs.Induction
import Mathlib.Data.List.Basic
/-!
# Resolved trees in pre-order

A resolved tree is visited node by node, each node in front of its children; the positions that
are kept during the visit do not change which nodes are met. Resolving acts on each node by itself,
so the nodes of a resolved tree are the resolved nodes of the tree.
-/

namespace ComponentGen.ResolvedNode

/-- The nodes of a list of trees, when the nodes of each tree do not depend on its position. -/
theorem map_snd_locatedList {nodes : List ResolvedNode}
    (anywhere : ∀ node ∈ nodes, ∀ path, (located path node).map Prod.snd = node.preorder)
    (path : List Nat) (i : Nat) :
    (locatedList path i nodes).map Prod.snd = nodes.flatMap preorder := by
  induction nodes generalizing i with
  | nil => rfl
  | cons node rest ih =>
      have restAnywhere := fun other member => anywhere other (List.mem_cons_of_mem _ member)
      rw [locatedList, List.map_append, anywhere node List.mem_cons_self, ih restAnywhere,
        List.flatMap_cons]

theorem map_snd_locatedChildren {c : Children ResolvedNode}
    (anywhere : ∀ node ∈ c.toList, ∀ path, (located path node).map Prod.snd = node.preorder)
    (path : List Nat) :
    (locatedChildren path c).map Prod.snd = c.toList.flatMap preorder := by
  cases c with
  | absent => rfl
  | single node =>
      rw [locatedChildren, anywhere node (by simp [Children.toList])]
      simp [Children.toList]
  | list nodes =>
      rw [locatedChildren]
      exact map_snd_locatedList anywhere path 0

theorem located_eq (path : List Nat) (n : ResolvedNode) :
    located path n = (path, n) :: locatedChildren path n.children := by
  cases n
  rw [located]

/-- The nodes of a tree do not depend on the position of its root. -/
theorem map_snd_located (n : ResolvedNode) (path : List Nat) :
    (located path n).map Prod.snd = n.preorder := by
  induction n using ResolvedNode.nested generalizing path with
  | node n ih =>
      rw [preorder, located_eq, located_eq, List.map_cons, List.map_cons,
        map_snd_locatedChildren ih, map_snd_locatedChildren ih]

/-- A node is visited first, then its nested nodes. -/
theorem preorder_eq (n : ResolvedNode) : n.preorder = n :: n.childNodes.flatMap preorder := by
  rw [preorder, located_eq, List.map_cons,
    map_snd_locatedChildren fun node _ => map_snd_located node]
  rfl

theorem ofNode_eq (index : PlaceholderIndex) (n : Node) :
    ofNode index n =
      { type := n.type
        props := n.props.mapValues (ResolvedValue.ofJson index)
        styleMap := n.styleMap.mapValues (ResolvedValue.ofJson index)
        data := n.data.mapValues (ResolvedValue.ofJson index)
        children := n.children.map (ofNode index) } := by
  cases n
  rw [ofNode, ofChildren_eq_map]

theorem childNodes_ofNode (index : PlaceholderIndex) (n : Node) :
    (ofNode index n).childNodes = n.childNodes.map (ofNode index) := by
  rw [ofNode_eq]
  exact Children.toList_map (ofNode index) n.children

/-- The nodes of a resolved tree are the resolved nodes of the tree. -/
theorem preorder_ofNode (index : PlaceholderIndex) (n : Node) :
    (ofNode index n).preorder = n.preorder.map (ofNode index) := by
  induction n using Node.nested with
  | node n ih =>
      rw [preorder_eq, Node.preorder_eq, childNodes_ofNode, List.map_cons, List.flatMap_map,
        List.map_flatMap]
      exact congrArg (ofNode index n :: ·) (List.flatMap_congr ih)

theorem childNodes_ofComponent (n : Node) (i : Interface) (index : PlaceholderIndex) :
    (ofComponent n i index).childNodes = n.childNodes.map (ofNode index) :=
  childNodes_ofNode index n

theorem preorder_ofComponent (n : Node) (i : Interface) (index : PlaceholderIndex) :
    (ofComponent n i index).preorder = ofComponent n i index ::
      (n.childNodes.flatMap Node.preorder).map (ofNode index) := by
  rw [preorder_eq, childNodes_ofComponent, List.flatMap_map, List.map_flatMap]
  exact congrArg (ofComponent n i index :: ·)
    (List.flatMap_congr fun child _ => preorder_ofNode index child)

/-- What is collected node by node from a component is collected from the nodes of its tree, when
each resolved node gives what its node gives. -/
theorem flatMap_preorder_ofComponent {α : Type} {n : Node} {i : Interface}
    {index : PlaceholderIndex} {ofResolved : ResolvedNode → List α} {ofSource : Node → List α}
    (atRoot : ofResolved (ofComponent n i index) = ofSource n)
    (below : ∀ node, ofResolved (ofNode index node) = ofSource node) :
    (ofComponent n i index).preorder.flatMap ofResolved = n.preorder.flatMap ofSource := by
  rw [preorder_ofComponent, Node.preorder_eq, List.flatMap_cons, List.flatMap_cons, atRoot,
    List.flatMap_map]
  exact congrArg (ofSource n ++ ·) (List.flatMap_congr fun node _ => below node)

end ComponentGen.ResolvedNode
