import ComponentGen.Json.Basic
/-!
# Component trees

A component is defined by a tree of nodes. Each node instantiates a component type with props,
styles and data, and may nest further nodes as a single child or as a list. A node may carry a
sample overlay with concrete values for previews; `Component.Overlay` applies the overlays.
-/

namespace ComponentGen

/-- What is nested in a node. Whether the children field is there, and whether it holds a single
node or a list, is part of the tree. -/
inductive Children (α : Type) where
  | absent
  | single (node : α)
  | list (nodes : List α)

/-- An overlay of sample values: styles, data and children, each of which may be left out. -/
inductive Overlay (α : Type) where
  | absent
  | present (styleMap data : Option (OrderedMap Json)) (children : Children α)

/-- A node of a component tree. -/
structure Node where
  type : String
  props : OrderedMap Json := .empty
  styleMap : OrderedMap Json := .empty
  data : OrderedMap Json := .empty
  children : Children Node := .absent
  sample : Overlay Node := .absent

namespace Children

variable {α β : Type}

instance : Inhabited (Children α) := ⟨absent⟩

/-- The nested nodes in order, whichever shape they have. -/
def toList : Children α → List α
  | absent => []
  | single node => [node]
  | list nodes => nodes

/-- Change every nested node and keep the shape. -/
def map (f : α → β) : Children α → Children β
  | absent => absent
  | single node => single (f node)
  | list nodes => list (nodes.map f)

/-- Changing the nested nodes changes them one by one. -/
@[simp] theorem toList_map (f : α → β) (c : Children α) : (c.map f).toList = c.toList.map f := by
  cases c <;> rfl

/-- Nest one more node at the end; a single node becomes a list. -/
def append (node : α) : Children α → Children α
  | absent => list [node]
  | single first => list [first, node]
  | list nodes => list (nodes ++ [node])

/-- The nested nodes after nesting one more. -/
@[simp] theorem toList_append (node : α) (c : Children α) :
    (c.append node).toList = c.toList ++ [node] := by
  cases c <;> rfl

end Children

namespace Node

instance : Inhabited Node := ⟨{ type := "" }⟩

/-- A node of the given type with nothing else. -/
def ofType (type : String) : Node := { type }

/-- Set a style property. -/
def withStyle (n : Node) (key : String) (value : Json) : Node :=
  { n with styleMap := n.styleMap.insert key value }

/-- Set a data field. -/
def withData (n : Node) (key : String) (value : Json) : Node :=
  { n with data := n.data.insert key value }

/-- Set a prop. -/
def withProp (n : Node) (key : String) (value : Json) : Node :=
  { n with props := n.props.insert key value }

/-- Nest one more node at the end. -/
def withChild (n child : Node) : Node :=
  { n with children := n.children.append child }

/-- The nested nodes in order. -/
def childNodes (n : Node) : List Node :=
  n.children.toList

mutual

/-- The node and all nodes below it, each in front of its children. Overlays do not count. -/
def preorder : Node → List Node
  | ⟨type, props, styleMap, data, children, sample⟩ =>
    ⟨type, props, styleMap, data, children, sample⟩ :: preorderChildren children

/-- All nodes of the given children, each in front of its own. -/
def preorderChildren : Children Node → List Node
  | .absent => []
  | .single node => preorder node
  | .list nodes => preorderList nodes

/-- All nodes of a list of trees, each in front of its children. -/
def preorderList : List Node → List Node
  | [] => []
  | node :: rest => preorder node ++ preorderList rest

end

/-- The trees of a list are visited one after the other. -/
theorem preorderList_eq_flatMap (nodes : List Node) :
    preorderList nodes = nodes.flatMap preorder := by
  induction nodes with
  | nil => rfl
  | cons node rest ih => simp [preorderList, ih]

/-- The nested trees are visited in order, whichever shape they have. -/
theorem preorderChildren_eq_flatMap (c : Children Node) :
    preorderChildren c = c.toList.flatMap preorder := by
  cases c with
  | absent => rfl
  | single node => simp [preorderChildren, Children.toList]
  | list nodes => exact preorderList_eq_flatMap nodes

/-- A node is visited first, then its nested nodes. -/
theorem preorder_eq (n : Node) : n.preorder = n :: n.childNodes.flatMap preorder := by
  cases n
  simp [preorder, childNodes, preorderChildren_eq_flatMap]

/-- The distinct component types in the tree, in the order in which they are first met; an empty
type is none. -/
def types (n : Node) : List String :=
  ((n.preorder.map (·.type)).filter (· != "")).eraseDups

end Node

end ComponentGen
