import ComponentGen.Component.Node
import ComponentGen.Placeholder.Index
/-!
# Resolved trees

Component trees in which each placeholder string is replaced by a reference to a declared field.
Everything else stays as it is, at every depth; sample overlays are dropped. The root of a
component also says which declared style fields it forwards.
-/

namespace ComponentGen

/-- A value of a resolved tree. -/
inductive ResolvedValue where
  /-- A value taken as it is. -/
  | literal (value : Json)
  /-- A placeholder. -/
  | reference (target : Reference)
  | array (items : List ResolvedValue)
  | object (members : List (String × ResolvedValue))

/-- A node of a resolved tree. The root of a component lists the declared style fields that it
passes through; other nodes list none. -/
structure ResolvedNode where
  type : String
  props : OrderedMap ResolvedValue := .empty
  styleMap : OrderedMap ResolvedValue := .empty
  data : OrderedMap ResolvedValue := .empty
  children : Children ResolvedNode := .absent
  forwarding : Option (List String) := none

namespace ResolvedValue

instance : Inhabited ResolvedValue := ⟨literal .null⟩

mutual

/-- Replace the placeholders in a value. -/
def ofJson (index : PlaceholderIndex) : Json → ResolvedValue
  | .string s =>
    match index.resolve? s with
    | some target => reference target
    | none => literal (.string s)
  | .array items => array (ofItems index items)
  | .object members => object (ofMembers index members)
  | .null => literal .null
  | .bool b => literal (.bool b)
  | .number n => literal (.number n)

/-- Replace the placeholders in the items of an array. -/
def ofItems (index : PlaceholderIndex) : List Json → List ResolvedValue
  | [] => []
  | item :: rest => ofJson index item :: ofItems index rest

/-- Replace the placeholders in the values of members. -/
def ofMembers (index : PlaceholderIndex) : List (String × Json) → List (String × ResolvedValue)
  | [] => []
  | (key, value) :: rest => (key, ofJson index value) :: ofMembers index rest

end

/-- The items of an array are resolved one by one. -/
theorem ofItems_eq_map (index : PlaceholderIndex) (items : List Json) :
    ofItems index items = items.map (ofJson index) := by
  induction items with
  | nil => simp [ofItems]
  | cons item rest ih => simp [ofItems, ih]

/-- The members of an object are resolved one by one. -/
theorem ofMembers_eq_map (index : PlaceholderIndex) (members : List (String × Json)) :
    ofMembers index members = members.map fun member => (member.1, ofJson index member.2) := by
  induction members with
  | nil => simp [ofMembers]
  | cons member rest ih => simp [ofMembers, ih]

mutual

/-- The references in a value, in order. -/
def references : ResolvedValue → List Reference
  | literal _ => []
  | reference target => [target]
  | array items => itemReferences items
  | object members => memberReferences members

/-- The references in the items of an array. -/
def itemReferences : List ResolvedValue → List Reference
  | [] => []
  | item :: rest => references item ++ itemReferences rest

/-- The references in the values of members. -/
def memberReferences : List (String × ResolvedValue) → List Reference
  | [] => []
  | (_, value) :: rest => references value ++ memberReferences rest

end

/-- The references in an array are those of its items. -/
theorem itemReferences_eq_flatMap (items : List ResolvedValue) :
    itemReferences items = items.flatMap references := by
  induction items with
  | nil => simp [itemReferences]
  | cons item rest ih => simp [itemReferences, ih]

/-- The references in an object are those of its values. -/
theorem memberReferences_eq_flatMap (members : List (String × ResolvedValue)) :
    memberReferences members = members.flatMap fun member => references member.2 := by
  induction members with
  | nil => simp [memberReferences]
  | cons member rest ih => simp [memberReferences, ih]

end ResolvedValue

namespace ResolvedNode

instance : Inhabited ResolvedNode := ⟨{ type := "" }⟩

/-- The node is the root of a component. -/
def isRoot (n : ResolvedNode) : Bool :=
  n.forwarding.isSome

/-- The nested nodes in order. -/
def childNodes (n : ResolvedNode) : List ResolvedNode :=
  n.children.toList

mutual

/-- Replace the placeholders in a tree and drop its overlays. -/
def ofNode (index : PlaceholderIndex) : Node → ResolvedNode
  | ⟨type, props, styleMap, data, children, _⟩ =>
    { type
      props := props.mapValues (ResolvedValue.ofJson index)
      styleMap := styleMap.mapValues (ResolvedValue.ofJson index)
      data := data.mapValues (ResolvedValue.ofJson index)
      children := ofChildren index children }

/-- Replace the placeholders in the given children. -/
def ofChildren (index : PlaceholderIndex) : Children Node → Children ResolvedNode
  | .absent => .absent
  | .single node => .single (ofNode index node)
  | .list nodes => .list (ofNodes index nodes)

/-- Replace the placeholders in a list of trees. -/
def ofNodes (index : PlaceholderIndex) : List Node → List ResolvedNode
  | [] => []
  | node :: rest => ofNode index node :: ofNodes index rest

end

/-- The trees of a list are resolved one by one. -/
theorem ofNodes_eq_map (index : PlaceholderIndex) (nodes : List Node) :
    ofNodes index nodes = nodes.map (ofNode index) := by
  induction nodes with
  | nil => simp [ofNodes]
  | cons node rest ih => simp [ofNodes, ih]

/-- Resolving the children keeps their shape. -/
theorem ofChildren_eq_map (index : PlaceholderIndex) (c : Children Node) :
    ofChildren index c = c.map (ofNode index) := by
  cases c with
  | absent => simp [ofChildren, Children.map]
  | single node => simp [ofChildren, Children.map]
  | list nodes => simp [ofChildren, Children.map, ofNodes_eq_map]

/-- The resolved tree of a component: its root forwards the declared style fields. -/
def ofComponent (n : Node) (i : Interface) (index : PlaceholderIndex) : ResolvedNode :=
  { ofNode index n with forwarding := some i.styleFieldNames }

mutual

/-- The node and all nodes below it with their positions, each in front of its children. A
position lists child indices from the root; a single child has the index 0. -/
def located (path : List Nat) : ResolvedNode → List (List Nat × ResolvedNode)
  | ⟨type, props, styleMap, data, children, forwarding⟩ =>
    (path, ⟨type, props, styleMap, data, children, forwarding⟩) :: locatedChildren path children

/-- All nodes of the given children with their positions. -/
def locatedChildren (path : List Nat) : Children ResolvedNode → List (List Nat × ResolvedNode)
  | .absent => []
  | .single node => located (path ++ [0]) node
  | .list nodes => locatedList path 0 nodes

/-- All nodes of a list of trees with their positions; the first tree has the index `i`. -/
def locatedList (path : List Nat) (i : Nat) : List ResolvedNode → List (List Nat × ResolvedNode)
  | [] => []
  | node :: rest => located (path ++ [i]) node ++ locatedList path (i + 1) rest

end

/-- The node and all nodes below it, each in front of its children. -/
def preorder (n : ResolvedNode) : List ResolvedNode :=
  (n.located []).map Prod.snd

/-- The references in a map of values, in order. -/
def mapReferences (m : OrderedMap ResolvedValue) : List Reference :=
  m.values.flatMap ResolvedValue.references

/-- The references of one node: those of its props, its styles and its data. -/
def ownReferences (n : ResolvedNode) : List Reference :=
  mapReferences n.props ++ mapReferences n.styleMap ++ mapReferences n.data

/-- The references of a tree, node by node. -/
def references (n : ResolvedNode) : List Reference :=
  n.preorder.flatMap ownReferences

end ResolvedNode

/-- Index the placeholders of an interface and resolve a component tree against it. -/
def resolve (n : Node) (i : Interface) (policy : CollisionPolicy) :
    Except CollisionError ResolvedNode := do
  let index ← PlaceholderIndex.build i policy
  return ResolvedNode.ofComponent n i index

end ComponentGen
