import ComponentGen.Proofs.Generated.ClassMarkup
import ComponentGen.Proofs.JavaScript.Brackets
import ComponentGen.Proofs.Jsx.Reading
/-!
# Generated markup is well formed

The markup of a component derives from the grammar of markup, and the tags of the derivation form
the tree of the node types. Nothing that comes from a definition is printed raw but names, class
names, and text without characters of markup; everything else is an expression, whose brackets nest.
-/

namespace ComponentGen

open JavaScript (Expr isIdentifier isIdentifierPart)
open Jsx (Attribute Derives IsAttribute IsElement Markup Nested TagTree)

/-! ## The tree of node types -/

namespace ResolvedNode

mutual

/-- The tree of the types of a node and of all nodes below it. -/
def tagTree : ResolvedNode → TagTree
  | ⟨type, _, _, _, children, _⟩ => .element type (childTags children)

/-- The trees of the given children. -/
def childTags : Children ResolvedNode → List TagTree
  | .absent => []
  | .single node => [tagTree node]
  | .list nodes => listTags nodes

/-- The trees of the nodes of a list. -/
def listTags : List ResolvedNode → List TagTree
  | [] => []
  | node :: rest => tagTree node :: listTags rest

end

theorem listTags_eq_map (nodes : List ResolvedNode) : listTags nodes = nodes.map tagTree := by
  induction nodes with
  | nil => rfl
  | cons node rest ih => rw [listTags, ih, List.map_cons]

theorem tagTree_eq (n : ResolvedNode) :
    n.tagTree = .element n.type (n.childNodes.map tagTree) := by
  obtain ⟨type, props, styleMap, data, children, forwarding⟩ := n
  rw [tagTree]
  cases children with
  | absent => rfl
  | single node => rfl
  | list nodes => exact congrArg (TagTree.element type) (listTags_eq_map nodes)

/-- The type of the node and the keys of its props are identifiers. -/
structure HasIdentifiers (n : ResolvedNode) : Prop where
  type : isIdentifier n.type = true
  props : ∀ key ∈ n.props.keys, isIdentifier key = true

instance (n : ResolvedNode) : Decidable n.HasIdentifiers :=
  decidable_of_iff (isIdentifier n.type = true ∧ ∀ key ∈ n.props.keys, isIdentifier key = true)
    ⟨fun ⟨type, props⟩ => ⟨type, props⟩, fun ⟨type, props⟩ => ⟨type, props⟩⟩

end ResolvedNode

/-! ## Class names -/

/-- The name has letters, digits, underscores, dollar signs and hyphens only. -/
def IsClassName (name : String) : Prop :=
  ∀ c ∈ name.toList, (isIdentifierPart c || c == '-') = true

namespace IsClassName

theorem append {first second : String} (front : IsClassName first) (back : IsClassName second) :
    IsClassName (first ++ second) := by
  intro c member
  rw [String.toList_append] at member
  exact (List.mem_append.1 member).elim (front c) (back c)

theorem of_all {name : String}
    (all : (name.toList.all fun c => isIdentifierPart c || c == '-') = true) : IsClassName name :=
  List.all_eq_true.1 all

theorem of_parts {name : String} (parts : ∀ c ∈ name.toList, isIdentifierPart c = true) :
    IsClassName name := by
  intro c member
  rw [parts c member, Bool.true_or]

theorem free {name : String} (isClassName : IsClassName name) :
    ∀ c ∈ name.toList, c ≠ '"' ∧ c ≠ '{' ∧ c ≠ '}' := by
  intro c member
  have kind := isClassName c member
  refine ⟨?_, ?_, ?_⟩ <;> rintro rfl <;> exact absurd kind (by decide)

end IsClassName

namespace Style

theorem isClassName_childStem {className type : String} (isClassName : IsClassName className)
    (isType : isIdentifier type = true) : IsClassName (childStem className type) := by
  have lower : IsClassName (Text.lowerCase type) :=
    .of_parts fun _ member => JavaScript.isIdentifierPart_of_mem_lowerCase
      (fun _ inType => JavaScript.isIdentifierPart_of_mem isType inType) member
  have hyphen : IsClassName "-" := .of_all (by decide)
  exact (isClassName.append hyphen).append lower

theorem isClassName_childClass {stem : String} (isClassName : IsClassName stem)
    (c : Children ResolvedNode) (i : Nat) : IsClassName (childClass stem c i) := by
  cases c with
  | absent => exact isClassName
  | single node => exact isClassName
  | list nodes =>
      have hyphen : IsClassName "-" := .of_all (by decide)
      have digits : IsClassName (toString i) := by
        refine .of_parts fun c member => ?_
        rw [Text.toList_toString] at member
        have isDigit := Text.isDigit_of_mem_toDigits member
        rw [isIdentifierPart, Char.isAlphanum, isDigit, Bool.or_true]
        rfl
      exact (isClassName.append hyphen).append digits

/-- The class names of a tree are made of its types, of indices and of the name of its root. -/
theorem isClassName_of_mem_classesFrom {path : List Nat} {className : String} {n : ResolvedNode}
    (isClassName : IsClassName className) (identifiers : ∀ node ∈ n.preorder, node.HasIdentifiers)
    {entry : List Nat × String} (member : entry ∈ classesFrom path className n) :
    IsClassName entry.2 := by
  induction n using ResolvedNode.nested generalizing path className with
  | node n ih =>
      rw [ResolvedNode.preorder_eq, List.forall_mem_cons] at identifiers
      rw [classesFrom_eq_flatMap, List.mem_cons, List.mem_flatMap] at member
      rcases member with rfl | ⟨⟨child, i⟩, inChildren, inside⟩
      · exact isClassName
      · have isChild : child ∈ n.childNodes := List.fst_mem_of_mem_zipIdx inChildren
        have stem := isClassName_childStem isClassName identifiers.1.type
        refine ih child isChild (isClassName_childClass stem n.children i) ?_ inside
        exact fun node below => identifiers.2 node (List.mem_flatMap.2 ⟨child, isChild, below⟩)

end Style

namespace Generated

/-! ## Attributes -/

theorem isAttribute_flag {key : String} (isKey : isIdentifier key = true) :
    IsAttribute (" " ++ (Attribute.flag key).text).toList := by
  rw [Attribute.text, String.toList_append]
  exact .flag isKey

theorem isAttribute_plain {key text : String} (isKey : isIdentifier key = true)
    (isClassName : IsClassName text) :
    IsAttribute (" " ++ (Attribute.plain key text).text).toList := by
  have whole := IsAttribute.plain isKey isClassName.free
  rw [Attribute.text, String.toList_append, String.toList_append, String.toList_append,
    String.toList_append]
  simpa using whole

theorem isAttribute_value {key : String} (isKey : isIdentifier key = true) (expr : Expr) :
    IsAttribute (" " ++ (Attribute.value key expr).text).toList := by
  have whole := IsAttribute.value isKey expr.nested_text
  rw [Attribute.text, Jsx.braced, String.toList_append, String.toList_append, String.toList_append,
    String.toList_append, String.toList_append]
  simpa using whole

theorem isAttribute_propAttribute {key : String} {value : ResolvedValue} {a : Attribute}
    (isKey : isIdentifier key = true) (printed : propAttribute? key value = some a) :
    IsAttribute (" " ++ a.text).toList := by
  unfold propAttribute? at printed
  split at printed
  · cases printed
    exact isAttribute_flag isKey
  · cases printed
  · cases printed
    exact isAttribute_value isKey _

/-- All attributes of an element derive from the grammar. -/
theorem isAttribute_of_mem_attributes {mode : StyleMode} {className : Option String}
    {n : ResolvedNode} (identifiers : n.HasIdentifiers)
    (isClassName : ∀ name, className = some name → IsClassName name) {a : Attribute}
    (member : a ∈ attributes mode className n) : IsAttribute (" " ++ a.text).toList := by
  rw [attributes, List.mem_append, List.mem_append, List.mem_append] at member
  rcases member with ((inProps | inStyle) | inClass) | inData
  · obtain ⟨⟨key, value⟩, entry, printed⟩ := List.mem_filterMap.1 inProps
    exact isAttribute_propAttribute (identifiers.props key (List.mem_map_of_mem entry)) printed
  · split at inStyle
    · cases inStyle
    · obtain rfl := List.mem_singleton.1 inStyle
      exact isAttribute_value (by decide) _
  · obtain ⟨name, isName, rfl⟩ : ∃ name, className = some name ∧ .plain "className" name = a := by
      simpa using inClass
    exact isAttribute_plain (by decide) (isClassName name isName)
  · split at inData
    · cases inData
    · obtain rfl := List.mem_singleton.1 inData
      exact isAttribute_value (by decide) _

/-! ## Elements -/

/-- An element derives from the grammar if its attributes and its content do. -/
theorem derives_element {tag : String} {attributes : List Attribute} {content : List Markup}
    {children : List TagTree} (isTag : isIdentifier tag = true)
    (areAttributes : ∀ a ∈ attributes, IsAttribute (" " ++ a.text).toList)
    (inside : Derives .items children (Markup.renderAll .paired content).toList) :
    Derives .element [.element tag children]
      ((Markup.element tag attributes content).render .paired).toList := by
  have whole := Derives.element isTag (List.forall_mem_map.2 areAttributes) inside
  have written : ((attributes.map fun a => " " ++ a.text).flatMap String.toList) =
      (attributes.map fun a => (" " ++ a.text).toList).flatten := by
    rw [List.flatMap_map]
    rfl
  rw [Markup.render_element, Jsx.tagText]
  simpa [String.toList_join, written] using whole

/-- Pieces in a row derive from the grammar if each of them does. -/
theorem derives_renderAll {α : Type} {items : List α} {write : α → Markup}
    {trees : α → List TagTree}
    (all : ∀ item ∈ items, Derives .items (trees item) ((write item).render .paired).toList) :
    Derives .items (items.flatMap trees) (Markup.renderAll .paired (items.map write)).toList := by
  induction items with
  | nil => exact .nil
  | cons item rest ih =>
      rw [List.flatMap_cons, List.map_cons, Markup.renderAll, String.toList_append]
      exact (all item List.mem_cons_self).append
        (ih fun later member => all later (List.mem_cons_of_mem item member))

theorem derives_insert (expr : Expr) :
    Derives .items [] ((Markup.insert expr).render .paired).toList := by
  have whole := Derives.insert expr.nested_text .nil
  rw [Markup.render, Jsx.braced, String.toList_append, String.toList_append]
  simpa using whole

theorem derives_text {s : String} (free : ∀ c ∈ s.toList, Jsx.isMarkup c = false) :
    Derives .items [] ((Markup.text s).render .paired).toList := by
  have whole := Derives.text free .nil
  rw [List.append_nil] at whole
  rwa [Markup.render]

/-- What is printed as text has no characters of markup, and the rest is inserted. -/
theorem derives_contentMarkup {value : ResolvedValue} {piece : Markup}
    (member : piece ∈ contentMarkup value) :
    Derives .items [] (piece.render .paired).toList := by
  unfold contentMarkup at member
  split at member
  · obtain rfl := List.mem_singleton.1 member
    exact derives_insert _
  · next s =>
      split at member
      · obtain rfl := List.mem_singleton.1 member
        exact derives_insert _
      · next free =>
          obtain rfl := List.mem_singleton.1 member
          rw [Bool.not_eq_true, List.any_eq_false] at free
          exact derives_text fun c inText => Bool.eq_false_iff.2 (free c inText)
  · obtain rfl := List.mem_singleton.1 member
    refine derives_text fun c inText => ?_
    have kind := JavaScript.isNumberChar_of_mem_numberText inText
    rw [Bool.eq_false_iff]
    intro isMarkup
    simp only [Jsx.isMarkup, Bool.or_eq_true, beq_iff_eq] at isMarkup
    rcases isMarkup with ((rfl | rfl) | rfl) | rfl <;> exact absurd kind (by decide)
  · cases member

theorem derives_textContent (n : ResolvedNode) :
    Derives .items [] (Markup.renderAll .paired (textContent n).1).toList ∧
      Derives .items [] (Markup.renderAll .paired (textContent n).2).toList := by
  have pieces {content : List Markup}
      (all : ∀ piece ∈ content, Derives .items [] (piece.render .paired).toList) :
      Derives .items [] (Markup.renderAll .paired content).toList := by
    have whole : Derives .items (content.flatMap fun _ => []) _ := derives_renderAll all
    rwa [List.map_id', List.flatMap_eq_nil_iff.2 fun _ _ => rfl] at whole
  constructor
  · refine pieces fun piece member => ?_
    rw [textContent] at member
    cases content : n.data.get? "content" with
    | none =>
        rw [content] at member
        cases member
    | some value =>
        rw [content] at member
        exact derives_contentMarkup member
  · refine pieces fun piece member => ?_
    rw [textContent] at member
    split at member
    · obtain rfl := List.mem_singleton.1 member
      exact derives_insert _
    · cases member

/-! ## Trees -/

variable {mode : StyleMode} {classOf : List Nat → Option String}

/-- The markup of a tree is an element whose tags form the tree of the node types. -/
theorem isElement_markup (areClassNames : ∀ path name, classOf path = some name → IsClassName name)
    {n : ResolvedNode} (identifiers : ∀ node ∈ n.preorder, node.HasIdentifiers) (path : List Nat) :
    IsElement n.tagTree ((markup mode classOf path n).render .paired) := by
  induction n using ResolvedNode.nested generalizing path with
  | node n ih =>
      rw [ResolvedNode.preorder_eq, List.forall_mem_cons] at identifiers
      have children : Derives .items (n.childNodes.map ResolvedNode.tagTree)
          (Markup.renderAll .paired (childrenMarkup mode classOf path n.children)).toList := by
        have trees : (n.childNodes.zipIdx.flatMap fun child => [child.1.tagTree]) =
            n.childNodes.map ResolvedNode.tagTree := by
          rw [← List.map_eq_flatMap, ← Function.comp_def, ← List.map_map, List.zipIdx_map_fst]
        rw [childrenMarkup_eq_map, ← trees]
        refine derives_renderAll fun child inChildren => ?_
        have isChild : child.1 ∈ n.childNodes := List.fst_mem_of_mem_zipIdx inChildren
        refine Derives.of_element (ih child.1 isChild ?_ _)
        exact fun node below => identifiers.2 node (List.mem_flatMap.2 ⟨child.1, isChild, below⟩)
      obtain ⟨front, back⟩ := derives_textContent n
      have content := (front.append children).append back
      rw [List.nil_append, List.append_nil, ← String.toList_append, ← String.toList_append,
        ← Markup.renderAll_append, ← Markup.renderAll_append] at content
      rw [ResolvedNode.tagTree_eq, markup_eq]
      exact derives_element identifiers.1.type
        (fun a member => isAttribute_of_mem_attributes identifiers.1 (areClassNames path) member)
        content

theorem isClassName_rootClass {name : String}
    (alphanum : ∀ c ∈ name.toList, c.isAlphanum = true) : IsClassName (Style.rootClass name) := by
  have lower : IsClassName (Text.lowerCase name) :=
    .of_parts fun _ member => JavaScript.isIdentifierPart_of_mem_lowerCase
      (fun c inName => by rw [isIdentifierPart, alphanum c inName]; rfl) member
  have suffix : IsClassName "-root" := .of_all (by decide)
  exact lower.append suffix

theorem isClassName_of_classTable? {name : String} {root : ResolvedNode}
    (alphanum : ∀ c ∈ name.toList, c.isAlphanum = true)
    (identifiers : ∀ node ∈ root.preorder, node.HasIdentifiers) {path : List Nat}
    {className : String}
    (found : (classTable? name root mode).bind (·.get? path) = some className) :
    IsClassName className := by
  cases mode with
  | inline => cases found
  | classes =>
      have entry : (path, className) ∈ (Style.assignClasses name root).entries :=
        Entries.mem_of_lookup found
      exact Style.isClassName_of_mem_classesFrom (isClassName_rootClass alphanum) identifiers entry

/-- The markup that a component returns is well formed, and the tree of its tags, which is the only
one that it can be read as, is the tree of the node types. -/
theorem rootMarkup_tagTree {name : String} {root : ResolvedNode}
    (alphanum : ∀ c ∈ name.toList, c.isAlphanum = true)
    (identifiers : ∀ node ∈ root.preorder, node.HasIdentifiers) (mode : StyleMode) :
    IsElement root.tagTree ((rootMarkup name root mode).render .paired) ∧
      ∀ tree, IsElement tree ((rootMarkup name root mode).render .paired) →
        tree = root.tagTree := by
  have derives : IsElement root.tagTree ((rootMarkup name root mode).render .paired) :=
    isElement_markup (fun _ _ => isClassName_of_classTable? alphanum identifiers) identifiers []
  exact ⟨derives, fun tree other => List.singleton_inj.1 (Derives.trees_unique other derives)⟩

/-- Quotes, backslashes, brackets and angle brackets in a prop, in content, and in a key of data. -/
def spikyCard : ResolvedNode where
  type := "Card"
  props := .ofList [("title", .literal (.string "\"\x7d</Card>\\")), ("open", .literal (.bool true))]
  data := .ofList [("content", .literal (.string "a > {b}")),
    ("]-[", .array [.literal (.string "("), .literal .null])]
  children := .list [{ type := "Text", data := .ofList [("content", .literal (.string "\")"))] },
    { type := "$Row", children := .single { type := "Text" } }]
  forwarding := some ["--bg"]

theorem rootMarkup_tagTree_spikyCard :
    (∀ c ∈ "Card".toList, c.isAlphanum = true) ∧
    (∀ node ∈ spikyCard.preorder, node.HasIdentifiers) ∧
    ∀ mode, IsElement
      (.element "Card" [.element "Text" [], .element "$Row" [.element "Text" []]])
      ((rootMarkup "Card" spikyCard mode).render .paired) := by
  have identifiers : ∀ node ∈ spikyCard.preorder, node.HasIdentifiers := by decide
  have alphanum : ∀ c ∈ "Card".toList, c.isAlphanum = true := List.all_eq_true.1 (by decide)
  exact ⟨alphanum, identifiers, fun mode => (rootMarkup_tagTree alphanum identifiers mode).1⟩

end Generated

end ComponentGen
