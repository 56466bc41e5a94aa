import ComponentGen.Generation
import ComponentGen.Proofs.Resolved.Spelling
/-!
# What generated markup reads

The markup of a component reads fields of the component's input: for the references in its tree, and
for the style fields that a node forwards. Attributes, style objects, data objects and text content
are gone through one by one, and nothing else is read at any depth.
-/

namespace ComponentGen

open JavaScript (Expr)
open Jsx (Attribute Markup)

/-! ## Fields that are read -/

namespace JavaScript.Expr

theorem itemInputs_eq_flatMap (items : List Expr) : itemInputs items = items.flatMap inputs := by
  induction items with
  | nil => rfl
  | cons item rest ih => rw [itemInputs, ih, List.flatMap_cons]

theorem entryInputs_eq_flatMap (entries : List (String × Expr)) :
    entryInputs entries = entries.flatMap fun entry => inputs entry.2 := by
  induction entries with
  | nil => rfl
  | cons entry rest ih => rw [entryInputs, ih, List.flatMap_cons]

/-- The expression of a value reads the fields of its references. -/
theorem inputs_ofValue (value : ResolvedValue) :
    (ofValue value).inputs = value.references.map Reference.binding := by
  induction value using ResolvedValue.nested with
  | literal value => rfl
  | reference target => rfl
  | array items ih =>
      rw [ofValue, inputs, ofItems_eq_map, itemInputs_eq_flatMap, List.flatMap_map,
        ResolvedValue.references, ResolvedValue.itemReferences_eq_flatMap, List.map_flatMap]
      exact List.flatMap_congr ih
  | object members ih =>
      rw [ofValue, inputs, ofMembers_eq_map, entryInputs_eq_flatMap, List.flatMap_map,
        ResolvedValue.references, ResolvedValue.memberReferences_eq_flatMap, List.map_flatMap]
      exact List.flatMap_congr ih

theorem inputs_ofMap (m : OrderedMap ResolvedValue) :
    (ofMap m).inputs = (ResolvedNode.mapReferences m).map Reference.binding := by
  rw [ofMap, inputs, ofMembers_eq_map, entryInputs_eq_flatMap, List.flatMap_map,
    ResolvedNode.mapReferences, OrderedMap.values, List.flatMap_map, List.map_flatMap]
  exact List.flatMap_congr fun entry _ => inputs_ofValue entry.2

/-- The value of a key in an object literal: the last one counts. -/
def member? (key : String) : Expr → Option Expr
  | object entries => entries.reverse.lookup key
  | _ => none

end JavaScript.Expr

namespace Jsx

/-- The fields of the input that an attribute reads. -/
def Attribute.inputs : Attribute → List Binding
  | flag _ | plain _ _ => []
  | value _ expr => expr.inputs

def Attribute.name : Attribute → String
  | flag name | plain name _ | value name _ => name

def Attribute.expr? : Attribute → Option Expr
  | flag _ | plain _ _ => none
  | value _ expr => some expr

namespace Markup

mutual

/-- The fields of the input that a piece of markup reads, at any depth. -/
def inputs : Markup → List Binding
  | text _ => []
  | insert expr => expr.inputs
  | element _ attributes content => attributes.flatMap Attribute.inputs ++ contentInputs content

/-- The fields of the input that several pieces of markup read. -/
def contentInputs : List Markup → List Binding
  | [] => []
  | piece :: rest => inputs piece ++ contentInputs rest

end

theorem contentInputs_eq_flatMap (pieces : List Markup) :
    contentInputs pieces = pieces.flatMap inputs := by
  induction pieces with
  | nil => rfl
  | cons piece rest ih => rw [contentInputs, ih, List.flatMap_cons]

/-- The attribute of a name: the last one counts. -/
def attribute? (name : String) : Markup → Option Attribute
  | element _ attributes _ => attributes.reverse.find? fun a => a.name = name
  | _ => none

/-- What the style object of an element binds a key to. -/
def styleBinding? (key : String) (m : Markup) : Option Expr :=
  ((m.attribute? "style").bind Attribute.expr?).bind (Expr.member? key)

end Markup

end Jsx

/-- The fields of the input that a node can read: those of its references, and the style fields
that it forwards. -/
def ResolvedNode.ownReads (n : ResolvedNode) : List Binding :=
  n.ownReferences.map Reference.binding ++
    (n.forwarding.getD []).map fun field => ⟨.style, field⟩

namespace Generated

theorem inputs_propAttribute {key : String} {value : ResolvedValue} {a : Attribute}
    (printed : propAttribute? key value = some a) :
    a.inputs ⊆ value.references.map Reference.binding := by
  unfold propAttribute? at printed
  split at printed
  · cases printed
    exact List.nil_subset _
  · cases printed
  · cases printed
    rw [Attribute.inputs, Expr.inputs_ofValue]
    exact List.Subset.refl _

theorem mem_mapReferences {m : OrderedMap ResolvedValue} {key : String} {value : ResolvedValue}
    {target : Reference} (entry : (key, value) ∈ m.entries)
    (inValue : target ∈ value.references) : target ∈ ResolvedNode.mapReferences m :=
  List.mem_flatMap.2 ⟨value, List.mem_map.2 ⟨(key, value), entry, rfl⟩, inValue⟩

theorem eq_of_mem_expand {key : String} {value : ResolvedValue} {e : Style.Entry}
    (member : e ∈ Style.expand key value) : e.key = key ∧ e.value = value := by
  rw [Style.expand] at member
  split at member
  · rcases List.mem_pair.1 member with rfl | rfl
    · exact ⟨rfl, rfl⟩
    · exact ⟨rfl, rfl⟩
  · split at member
    · cases member
    · obtain rfl := List.mem_singleton.1 member
      exact ⟨rfl, rfl⟩

/-- An expanded entry has the value of a member of the style map. -/
theorem mem_entries_of_mem_entries {styleMap : OrderedMap ResolvedValue} {e : Style.Entry}
    (member : e ∈ Style.entries styleMap) : (e.key, e.value) ∈ styleMap.entries := by
  obtain ⟨⟨key, value⟩, inMap, expanded⟩ := List.mem_flatMap.1 member
  obtain ⟨sameKey, sameValue⟩ := eq_of_mem_expand expanded
  rw [sameKey, sameValue]
  exact inMap

theorem inputs_inlineValue {value : ResolvedValue} {expr : Expr}
    (printed : Style.inlineValue? value = some expr) :
    expr.inputs ⊆ value.references.map Reference.binding := by
  cases value with
  | literal value =>
      cases value <;> cases printed
      all_goals exact List.nil_subset _
  | reference target =>
      obtain ⟨category, key, surface, cssVariable⟩ := target
      cases category with
      | style =>
          cases printed
          exact List.nil_subset _
      | data =>
          cases printed
          exact List.Subset.refl _
  | array items => cases printed
  | object members => cases printed

/-- The attributes that the props of a node are printed as. -/
def propAttributes (n : ResolvedNode) : List Attribute :=
  n.props.entries.filterMap fun (key, value) => propAttribute? key value

/-- A style object that holds anything comes behind the props. -/
theorem exists_attributes_eq {mode : StyleMode} {n : ResolvedNode}
    (some_here : styleMembers mode n ≠ []) (className : Option String) :
    ∃ back, attributes mode className n =
      propAttributes n ++ .value "style" (.object (styleMembers mode n)) :: back := by
  rw [attributes]
  split
  · next none_here => exact absurd none_here some_here
  · rw [List.append_assoc, List.append_assoc]
    exact ⟨_, rfl⟩

/-- The style object of an element reads data fields for references, and forwarded fields. -/
theorem inputs_styleMembers (mode : StyleMode) (n : ResolvedNode) :
    Expr.entryInputs (styleMembers mode n) ⊆ n.ownReads := by
  intro read member
  rw [Expr.entryInputs_eq_flatMap, styleMembers.eq_def, List.flatMap_append,
    List.mem_append] at member
  rw [ResolvedNode.ownReads, List.mem_append]
  rcases member with inOwn | inForwarded
  · left
    cases mode with
    | classes => cases inOwn
    | inline =>
        obtain ⟨⟨name, expr⟩, printed, reads⟩ := List.mem_flatMap.1 inOwn
        obtain ⟨e, inEntries, isInline⟩ := List.mem_filterMap.1 printed
        obtain ⟨value, hasValue, same⟩ := Option.map_eq_some_iff.1 isInline
        cases same
        obtain ⟨target, inValue, rfl⟩ := List.mem_map.1 (inputs_inlineValue hasValue reads)
        have inStyles := mem_mapReferences (mem_entries_of_mem_entries inEntries) inValue
        refine List.mem_map.2 ⟨target, ?_, rfl⟩
        exact List.mem_append_left _ (List.mem_append_right _ inStyles)
  · right
    obtain ⟨entry, isForwarded, reads⟩ := List.mem_flatMap.1 inForwarded
    obtain ⟨field, inForwarding, rfl⟩ := List.mem_map.1 isForwarded
    obtain rfl := List.mem_singleton.1 reads
    exact List.mem_map.2 ⟨field, inForwarding, rfl⟩

theorem inputs_attributes (mode : StyleMode) (className : Option String) (n : ResolvedNode) :
    (attributes mode className n).flatMap Attribute.inputs ⊆ n.ownReads := by
  intro read member
  rw [attributes, List.flatMap_append, List.flatMap_append, List.flatMap_append, List.mem_append,
    List.mem_append, List.mem_append] at member
  rcases member with ((inProps | inStyle) | inClass) | inData
  · obtain ⟨a, isProp, reads⟩ := List.mem_flatMap.1 inProps
    obtain ⟨⟨key, value⟩, entry, printed⟩ := List.mem_filterMap.1 isProp
    obtain ⟨target, inValue, rfl⟩ := List.mem_map.1 (inputs_propAttribute printed reads)
    refine List.mem_append_left _ (List.mem_map.2 ⟨target, ?_, rfl⟩)
    exact List.mem_append_left _ (List.mem_append_left _ (mem_mapReferences entry inValue))
  · apply inputs_styleMembers mode n
    split at inStyle
    · cases inStyle
    · rw [List.flatMap_singleton] at inStyle
      exact inStyle
  · cases className with
    | none => cases inClass
    | some name => cases inClass
  · split at inData
    · cases inData
    · rw [List.flatMap_singleton, Attribute.inputs, Expr.inputs_ofMap] at inData
      obtain ⟨target, inMap, rfl⟩ := List.mem_map.1 inData
      exact List.mem_append_left _ (List.mem_map.2 ⟨target, List.mem_append_right _ inMap, rfl⟩)

theorem inputs_contentMarkup (value : ResolvedValue) :
    (contentMarkup value).flatMap Markup.inputs ⊆ value.references.map Reference.binding := by
  unfold contentMarkup
  split
  · exact List.Subset.refl _
  · split
    · exact List.nil_subset _
    · exact List.nil_subset _
  · exact List.nil_subset _
  · exact List.nil_subset _

theorem inputs_textContent (n : ResolvedNode) :
    (textContent n).1.flatMap Markup.inputs ⊆ n.ownReads ∧
      (textContent n).2.flatMap Markup.inputs = [] := by
  constructor
  · intro read member
    rw [textContent] at member
    cases content : n.data.get? "content" with
    | none =>
        rw [content] at member
        cases member
    | some value =>
        rw [content] at member
        obtain ⟨target, inValue, rfl⟩ := List.mem_map.1 (inputs_contentMarkup value member)
        have inData := mem_mapReferences (OrderedMap.mem_entries_of_get? content) inValue
        exact List.mem_append_left _ (List.mem_map.2 ⟨target, List.mem_append_right _ inData, rfl⟩)
  · rw [textContent]
    cases n.isRoot <;> rfl

/-! ## Markup of a tree -/

variable (mode : StyleMode) (classOf : List Nat → Option String)

theorem markup_eq (path : List Nat) (n : ResolvedNode) :
    markup mode classOf path n =
      .element n.type (attributes mode (classOf path) n)
        ((textContent n).1 ++ childrenMarkup mode classOf path n.children ++
          (textContent n).2) := by
  cases n
  rw [markup]

theorem exists_of_mem_listMarkup {path : List Nat} {i : Nat} {nodes : List ResolvedNode}
    {piece : Markup} (member : piece ∈ listMarkup mode classOf path i nodes) :
    ∃ node ∈ nodes, ∃ position, piece = markup mode classOf position node := by
  induction nodes generalizing i with
  | nil => cases member
  | cons node rest ih =>
      rcases List.mem_cons.1 member with rfl | later
      · exact ⟨node, List.mem_cons_self, path ++ [i], rfl⟩
      · obtain ⟨other, inRest, found⟩ := ih later
        exact ⟨other, List.mem_cons_of_mem node inRest, found⟩

theorem exists_of_mem_childrenMarkup {path : List Nat} {c : Children ResolvedNode}
    {piece : Markup} (member : piece ∈ childrenMarkup mode classOf path c) :
    ∃ node ∈ c.toList, ∃ position, piece = markup mode classOf position node := by
  cases c with
  | absent => cases member
  | single node =>
      obtain rfl := List.mem_singleton.1 member
      exact ⟨node, List.mem_singleton_self node, path ++ [0], rfl⟩
  | list nodes => exact exists_of_mem_listMarkup mode classOf member

/-- The markup of a tree reads what its nodes can read. -/
theorem inputs_markup (path : List Nat) (n : ResolvedNode) :
    (markup mode classOf path n).inputs ⊆ n.preorder.flatMap ResolvedNode.ownReads := by
  induction n using ResolvedNode.nested generalizing path with
  | node n ih =>
      intro read member
      rw [markup_eq, Markup.inputs, Markup.contentInputs_eq_flatMap, List.flatMap_append,
        List.flatMap_append, List.mem_append, List.mem_append, List.mem_append] at member
      rw [ResolvedNode.preorder_eq, List.flatMap_cons, List.mem_append]
      -- The positions only choose class names, so the hypothesis is used at any of them.
      rcases member with inAttributes | (inText | inChildren) | inNested
      · exact .inl (inputs_attributes mode _ n inAttributes)
      · exact .inl ((inputs_textContent n).1 inText)
      · right
        obtain ⟨piece, isPiece, reads⟩ := List.mem_flatMap.1 inChildren
        obtain ⟨child, isChild, position, rfl⟩ :=
          exists_of_mem_childrenMarkup mode classOf isPiece
        obtain ⟨node, below, own⟩ := List.mem_flatMap.1 (ih child isChild position reads)
        exact List.mem_flatMap.2 ⟨node, List.mem_flatMap.2 ⟨child, isChild, below⟩, own⟩
      · rw [(inputs_textContent n).2] at inNested
        cases inNested

end Generated

end ComponentGen
