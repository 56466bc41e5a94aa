import ComponentGen.Proofs.Placeholder.Declared
import ComponentGen.Proofs.Resolved.Preorder
/-!
# What resolving a tree keeps and what it replaces

A resolved tree is compared with the tree it came from by spelling its references out again, and by
listing the strings of both trees in order. Resolving loses nothing but the sample overlays, turns
exactly those strings into references that the index resolves, and marks the root alone. Names of
CSS variables are taken as `IsVariableName` has them: an empty name, or one with a closing
parenthesis, is not read out of `var(..)`.
-/

namespace ComponentGen

/-! ## Strings of a tree -/

namespace Json

mutual

/-- The strings of a value at any depth, in order. Keys do not count. -/
def strings : Json → List String
  | string s => [s]
  | array items => itemStrings items
  | object members => memberStrings members
  | null | bool _ | number _ => []

def itemStrings : List Json → List String
  | [] => []
  | item :: rest => strings item ++ itemStrings rest

def memberStrings : List (String × Json) → List String
  | [] => []
  | (_, value) :: rest => strings value ++ memberStrings rest

end

theorem itemStrings_eq_flatMap (items : List Json) : itemStrings items = items.flatMap strings := by
  induction items with
  | nil => rfl
  | cons item rest ih => rw [itemStrings, ih, List.flatMap_cons]

theorem memberStrings_eq_flatMap (members : List (String × Json)) :
    memberStrings members = members.flatMap fun member => strings member.2 := by
  induction members with
  | nil => rfl
  | cons member rest ih => rw [memberStrings, ih, List.flatMap_cons]

end Json

namespace Node

/-- The strings of one node: those of its props, its styles and its data. -/
def ownStrings (n : Node) : List String :=
  (n.props.values ++ n.styleMap.values ++ n.data.values).flatMap Json.strings

/-- The strings of a tree, node by node. Overlays do not count. -/
def strings (n : Node) : List String :=
  n.preorder.flatMap ownStrings

mutual

/-- The tree without its overlays. -/
def withoutSamples : Node → Node
  | ⟨type, props, styleMap, data, children, _⟩ =>
    { type, props, styleMap, data, children := childrenWithoutSamples children }

def childrenWithoutSamples : Children Node → Children Node
  | .absent => .absent
  | .single node => .single (withoutSamples node)
  | .list nodes => .list (listWithoutSamples nodes)

def listWithoutSamples : List Node → List Node
  | [] => []
  | node :: rest => withoutSamples node :: listWithoutSamples rest

end

theorem listWithoutSamples_eq_map (nodes : List Node) :
    listWithoutSamples nodes = nodes.map withoutSamples := by
  induction nodes with
  | nil => rfl
  | cons node rest ih => rw [listWithoutSamples, ih, List.map_cons]

theorem withoutSamples_eq (n : Node) :
    n.withoutSamples =
      { type := n.type, props := n.props, styleMap := n.styleMap, data := n.data,
        children := n.children.map withoutSamples } := by
  obtain ⟨type, props, styleMap, data, children, sample⟩ := n
  rw [withoutSamples]
  cases children with
  | absent => rfl
  | single node => rfl
  | list nodes => rw [childrenWithoutSamples, listWithoutSamples_eq_map, Children.map]

end Node

/-! ## References spelled out -/

namespace ResolvedValue

mutual

/-- The value with each reference replaced by the string it was resolved from. -/
def spelled : ResolvedValue → Json
  | literal value => value
  | reference target => .string target.surface
  | array items => .array (spelledItems items)
  | object members => .object (spelledMembers members)

def spelledItems : List ResolvedValue → List Json
  | [] => []
  | item :: rest => spelled item :: spelledItems rest

def spelledMembers : List (String × ResolvedValue) → List (String × Json)
  | [] => []
  | (key, value) :: rest => (key, spelled value) :: spelledMembers rest

end

theorem spelledItems_eq_map (items : List ResolvedValue) :
    spelledItems items = items.map spelled := by
  induction items with
  | nil => rfl
  | cons item rest ih => rw [spelledItems, ih, List.map_cons]

theorem spelledMembers_eq_map (members : List (String × ResolvedValue)) :
    spelledMembers members = members.map fun member => (member.1, spelled member.2) := by
  induction members with
  | nil => rfl
  | cons member rest ih => rw [spelledMembers, ih, List.map_cons]

mutual

/-- The strings that a value holds as they are, at any depth. -/
def literalStrings : ResolvedValue → List String
  | literal value => value.strings
  | reference _ => []
  | array items => itemLiteralStrings items
  | object members => memberLiteralStrings members

def itemLiteralStrings : List ResolvedValue → List String
  | [] => []
  | item :: rest => literalStrings item ++ itemLiteralStrings rest

def memberLiteralStrings : List (String × ResolvedValue) → List String
  | [] => []
  | (_, value) :: rest => literalStrings value ++ memberLiteralStrings rest

end

theorem itemLiteralStrings_eq_flatMap (items : List ResolvedValue) :
    itemLiteralStrings items = items.flatMap literalStrings := by
  induction items with
  | nil => rfl
  | cons item rest ih => rw [itemLiteralStrings, ih, List.flatMap_cons]

theorem memberLiteralStrings_eq_flatMap (members : List (String × ResolvedValue)) :
    memberLiteralStrings members = members.flatMap fun member => literalStrings member.2 := by
  induction members with
  | nil => rfl
  | cons member rest ih => rw [memberLiteralStrings, ih, List.flatMap_cons]

variable (index : PlaceholderIndex)

/-- Spelling out a resolved value gives the value back. -/
theorem spelled_ofJson (value : Json) : (ofJson index value).spelled = value := by
  induction value using Json.nested with
  | null => rfl
  | bool b => rfl
  | number n => rfl
  | string s =>
      rw [ofJson]
      cases found : index.resolve? s with
      | none => rfl
      | some target => exact congrArg Json.string (PlaceholderIndex.surface_of_resolve? found)
  | array items ih =>
      rw [ofJson, spelled, ofItems_eq_map, spelledItems_eq_map, List.map_map]
      exact congrArg Json.array ((List.map_congr_left ih).trans (List.map_id' items))
  | object members ih =>
      have same : ∀ member ∈ members, (member.1, (ofJson index member.2).spelled) = member :=
        fun member inside => Prod.ext rfl (ih member inside)
      rw [ofJson, spelled, ofMembers_eq_map, spelledMembers_eq_map, List.map_map]
      exact congrArg Json.object ((List.map_congr_left same).trans (List.map_id' members))

/-- The references of a resolved value are those that its strings stand for. -/
theorem references_ofJson (value : Json) :
    (ofJson index value).references = value.strings.filterMap index.resolve? := by
  induction value using Json.nested with
  | null => rfl
  | bool b => rfl
  | number n => rfl
  | string s =>
      rw [ofJson, Json.strings]
      cases found : index.resolve? s <;> simp [references, found]
  | array items ih =>
      rw [ofJson, references, ofItems_eq_map, itemReferences_eq_flatMap, List.flatMap_map,
        Json.strings, Json.itemStrings_eq_flatMap, List.filterMap_flatMap]
      exact List.flatMap_congr ih
  | object members ih =>
      rw [ofJson, references, ofMembers_eq_map, memberReferences_eq_flatMap, List.flatMap_map,
        Json.strings, Json.memberStrings_eq_flatMap, List.filterMap_flatMap]
      exact List.flatMap_congr ih

/-- The strings left in a resolved value are those that stand for nothing. -/
theorem literalStrings_ofJson (value : Json) :
    (ofJson index value).literalStrings =
      value.strings.filter fun s => (index.resolve? s).isNone := by
  induction value using Json.nested with
  | null => rfl
  | bool b => rfl
  | number n => rfl
  | string s =>
      rw [ofJson, Json.strings]
      cases found : index.resolve? s <;> simp [literalStrings, Json.strings, found]
  | array items ih =>
      rw [ofJson, literalStrings, ofItems_eq_map, itemLiteralStrings_eq_flatMap, List.flatMap_map,
        Json.strings, Json.itemStrings_eq_flatMap, List.filter_flatMap]
      exact List.flatMap_congr ih
  | object members ih =>
      rw [ofJson, literalStrings, ofMembers_eq_map, memberLiteralStrings_eq_flatMap,
        List.flatMap_map, Json.strings, Json.memberStrings_eq_flatMap, List.filter_flatMap]
      exact List.flatMap_congr ih

end ResolvedValue

namespace ResolvedNode

mutual

/-- The tree with each reference replaced by the string it was resolved from. -/
def spelled : ResolvedNode → Node
  | ⟨type, props, styleMap, data, children, _⟩ =>
    { type
      props := props.mapValues ResolvedValue.spelled
      styleMap := styleMap.mapValues ResolvedValue.spelled
      data := data.mapValues ResolvedValue.spelled
      children := spelledChildren children }

def spelledChildren : Children ResolvedNode → Children Node
  | .absent => .absent
  | .single node => .single (spelled node)
  | .list nodes => .list (spelledNodes nodes)

def spelledNodes : List ResolvedNode → List Node
  | [] => []
  | node :: rest => spelled node :: spelledNodes rest

end

theorem spelledNodes_eq_map (nodes : List ResolvedNode) :
    spelledNodes nodes = nodes.map spelled := by
  induction nodes with
  | nil => rfl
  | cons node rest ih => rw [spelledNodes, ih, List.map_cons]

theorem spelled_eq (n : ResolvedNode) :
    n.spelled =
      { type := n.type
        props := n.props.mapValues ResolvedValue.spelled
        styleMap := n.styleMap.mapValues ResolvedValue.spelled
        data := n.data.mapValues ResolvedValue.spelled
        children := n.children.map spelled } := by
  obtain ⟨type, props, styleMap, data, children, forwarding⟩ := n
  rw [spelled]
  cases children with
  | absent => rfl
  | single node => rfl
  | list nodes => rw [spelledChildren, spelledNodes_eq_map, Children.map]

/-- The strings that one node holds as they are. -/
def ownLiteralStrings (n : ResolvedNode) : List String :=
  (n.props.values ++ n.styleMap.values ++ n.data.values).flatMap ResolvedValue.literalStrings

/-- The strings that a tree holds as they are, node by node. -/
def literalStrings (n : ResolvedNode) : List String :=
  n.preorder.flatMap ownLiteralStrings

/-- Spelling out a resolved tree gives the tree back without its overlays. -/
theorem spelled_ofNode (index : PlaceholderIndex) (n : Node) :
    (ofNode index n).spelled = n.withoutSamples := by
  induction n using Node.nested with
  | node n ih =>
      have maps (m : OrderedMap Json) :
          (m.mapValues (ResolvedValue.ofJson index)).mapValues ResolvedValue.spelled = m :=
        m.mapValues_mapValues_of_leftInverse (ResolvedValue.spelled_ofJson index)
      have children : (n.children.map (ofNode index)).map spelled =
          n.children.map Node.withoutSamples :=
        (Children.map_map spelled (ofNode index) n.children).trans (Children.map_congr ih)
      rw [ofNode_eq, spelled_eq, Node.withoutSamples_eq]
      dsimp only
      rw [maps, maps, maps, children]

theorem ownReferences_ofNode (index : PlaceholderIndex) (n : Node) :
    (ofNode index n).ownReferences = n.ownStrings.filterMap index.resolve? := by
  have ofMap (m : OrderedMap Json) : mapReferences (m.mapValues (ResolvedValue.ofJson index)) =
      (m.values.flatMap Json.strings).filterMap index.resolve? := by
    rw [mapReferences, OrderedMap.values_mapValues, List.flatMap_map, List.filterMap_flatMap]
    exact List.flatMap_congr fun value _ => ResolvedValue.references_ofJson index value
  rw [ofNode_eq, ownReferences, ofMap, ofMap, ofMap, Node.ownStrings, List.flatMap_append,
    List.flatMap_append, List.filterMap_append, List.filterMap_append]

theorem ownLiteralStrings_ofNode (index : PlaceholderIndex) (n : Node) :
    (ofNode index n).ownLiteralStrings =
      n.ownStrings.filter fun s => (index.resolve? s).isNone := by
  rw [ofNode_eq, ownLiteralStrings, Node.ownStrings, OrderedMap.values_mapValues,
    OrderedMap.values_mapValues, OrderedMap.values_mapValues, ← List.map_append,
    ← List.map_append, List.flatMap_map, List.filter_flatMap]
  exact List.flatMap_congr fun value _ => ResolvedValue.literalStrings_ofJson index value

/-- The references of a component are those that the strings of its tree stand for, in order. -/
theorem references_ofComponent (n : Node) (i : Interface) (index : PlaceholderIndex) :
    (ofComponent n i index).references = n.strings.filterMap index.resolve? := by
  rw [references, Node.strings, List.filterMap_flatMap]
  exact flatMap_preorder_ofComponent (ownReferences_ofNode index n) (ownReferences_ofNode index)

/-- The strings left in a component are those of its tree that stand for nothing, in order. -/
theorem literalStrings_ofComponent (n : Node) (i : Interface) (index : PlaceholderIndex) :
    (ofComponent n i index).literalStrings =
      n.strings.filter fun s => (index.resolve? s).isNone := by
  rw [literalStrings, Node.strings, List.filter_flatMap]
  exact flatMap_preorder_ofComponent (ownLiteralStrings_ofNode index n)
    (ownLiteralStrings_ofNode index)

/-- No node below the root of a component forwards anything. -/
theorem forwarding_below (n : Node) (i : Interface) (index : PlaceholderIndex) :
    ∀ node ∈ (ofComponent n i index).childNodes.flatMap preorder, node.forwarding = none := by
  intro node member
  rw [childNodes_ofComponent, List.mem_flatMap] at member
  obtain ⟨child, nested, inside⟩ := member
  obtain ⟨source, -, rfl⟩ := List.mem_map.1 nested
  rw [preorder_ofNode] at inside
  obtain ⟨origin, -, rfl⟩ := List.mem_map.1 inside
  rw [ofNode_eq]

variable {n : Node} {i : Interface} {policy : CollisionPolicy} {index : PlaceholderIndex}

/-- Every reference of a component is bound to a declared field of its category. -/
theorem declares_of_mem_references (built : PlaceholderIndex.build i policy = .ok index)
    {target : Reference} (member : target ∈ (ofComponent n i index).references) :
    i.Declares target.binding := by
  rw [references_ofComponent, List.mem_filterMap] at member
  obtain ⟨s, -, found⟩ := member
  exact PlaceholderIndex.declares_of_resolve? built found

/-- Resolving is lossless, sound and maximal. Spelled out again, the component is its tree without
overlays; each reference is bound to a declared field of its category; no string that is left is a
surface form, or the use of a CSS variable that is one; and the root, and no other node, forwards
the declared style fields. -/
theorem ofComponent_faithful (built : PlaceholderIndex.build i policy = .ok index) :
    (ofComponent n i index).spelled = n.withoutSamples ∧
    (∀ target ∈ (ofComponent n i index).references, i.Declares target.binding) ∧
    (∀ s ∈ (ofComponent n i index).literalStrings, s ∉ index.surfaces ∧
      ∀ name ∈ index.surfaces, IsVariableName name → s ≠ "var(" ++ name ++ ")") ∧
    (ofComponent n i index).forwarding = some i.styleFieldNames ∧
    ∀ node ∈ (ofComponent n i index).childNodes.flatMap preorder, node.forwarding = none := by
  refine ⟨?_, ?_, ?_, rfl, forwarding_below n i index⟩
  · have root : (ofComponent n i index).spelled = (ofNode index n).spelled := by
      rw [spelled_eq, spelled_eq]
      rfl
    rw [root, spelled_ofNode]
  · intro target member
    exact declares_of_mem_references built member
  · intro s left
    rw [literalStrings_ofComponent, List.mem_filter, Option.isNone_iff_eq_none] at left
    exact PlaceholderIndex.not_surface_of_resolve? left.2

/-- A data field takes the spelling of a style field over, and `var(..)` still finds the style
field. -/
theorem ofComponent_faithful_clash :
    let clash : Interface :=
      ((Interface.empty "Clash").withStyleField "--title" "string").withDataField "title" "string"
    let tree : Node :=
      { type := "Box"
        styleMap := .ofList [("color", .string "var(--title)")]
        children := .single { type := "Text", data := .ofList [("content", .string "title")] } }
    ∃ index, PlaceholderIndex.build clash .lastWriteWins = .ok index ∧
      (ofComponent tree clash index).spelled = tree.withoutSamples ∧
      (∀ target ∈ (ofComponent tree clash index).references, clash.Declares target.binding) ∧
      (∀ s ∈ (ofComponent tree clash index).literalStrings, s ∉ index.surfaces ∧
        ∀ name ∈ index.surfaces, IsVariableName name → s ≠ "var(" ++ name ++ ")") ∧
      (ofComponent tree clash index).forwarding = some clash.styleFieldNames ∧
      ∀ node ∈ (ofComponent tree clash index).childNodes.flatMap preorder,
        node.forwarding = none := by
  intro clash tree
  have built : PlaceholderIndex.build clash .lastWriteWins = .ok _ := rfl
  exact ⟨_, built, ofComponent_faithful built⟩

/-- Declared names that `IsVariableName` leaves out are not read out of `var(..)`, although they
are surface forms. -/
theorem literalStrings_of_odd_names :
    let odd : Interface :=
      ((Interface.empty "Odd").withStyleField "--a)b" "string").withStyleField "--" "string"
    let tree : Node :=
      { type := "Text"
        data := .ofList [("a", .string "var(--a)b)"), ("b", .string "var(--)")] }
    ∃ index, PlaceholderIndex.build odd .strict = .ok index ∧
      ∀ name ∈ ["--a)b", "--"], name ∈ index.surfaces ∧
        "var(" ++ name ++ ")" ∈ (ofComponent tree odd index).literalStrings :=
  ⟨_, rfl, by decide +kernel⟩

end ResolvedNode

end ComponentGen
