import ComponentGen.Proofs.Generated.Reads
import ComponentGen.Proofs.Style.ClassTable
/-!
# Class table, stylesheet and markup agree

The elements in the markup of a tree are those of its nodes, in the order in which the nodes are
visited, and each element is printed at the position of its node. Class names, rules and elements
therefore go along with one and the same list of positions.
-/

namespace ComponentGen

open Jsx (Attribute Markup)

namespace Jsx.Markup

mutual

/-- The elements of a piece of markup, each in front of the elements that it holds. -/
def elements : Markup → List Markup
  | text _ | insert _ => []
  | element tag attributes content =>
    element tag attributes content :: contentElements content

/-- The elements of several pieces of markup. -/
def contentElements : List Markup → List Markup
  | [] => []
  | piece :: rest => elements piece ++ contentElements rest

end

theorem contentElements_eq_flatMap (pieces : List Markup) :
    contentElements pieces = pieces.flatMap elements := by
  induction pieces with
  | nil => rfl
  | cons piece rest ih => rw [contentElements, ih, List.flatMap_cons]

def tag? : Markup → Option String
  | element tag _ _ => some tag
  | text _ | insert _ => none

end Jsx.Markup

namespace Generated

/-! ## Elements of a tree -/

theorem elements_textContent (n : ResolvedNode) :
    (textContent n).1.flatMap Markup.elements = [] ∧
      (textContent n).2.flatMap Markup.elements = [] := by
  constructor
  · rw [textContent]
    cases n.data.get? "content" with
    | none => rfl
    | some value =>
        rw [Option.map_some, Option.getD_some]
        unfold contentMarkup
        split
        · rfl
        · split <;> rfl
        · rfl
        · rfl
  · rw [textContent]
    cases n.isRoot <;> rfl

variable (mode : StyleMode) (classOf : List Nat → Option String)

theorem listMarkup_eq_map (path : List Nat) (i : Nat) (nodes : List ResolvedNode) :
    listMarkup mode classOf path i nodes =
      (nodes.zipIdx i).map fun child => markup mode classOf (path ++ [child.2]) child.1 := by
  induction nodes generalizing i with
  | nil => rfl
  | cons node rest ih => rw [listMarkup, ih, List.zipIdx_cons, List.map_cons]

/-- The nested nodes are printed by their indices, whichever shape they have. -/
theorem childrenMarkup_eq_map (path : List Nat) (c : Children ResolvedNode) :
    childrenMarkup mode classOf path c =
      c.toList.zipIdx.map fun child => markup mode classOf (path ++ [child.2]) child.1 := by
  cases c with
  | absent => rfl
  | single node => rfl
  | list nodes => exact listMarkup_eq_map mode classOf path 0 nodes

/-- The elements in the markup of a tree are those of its nodes, in the order of the visit. -/
theorem elements_markup (path : List Nat) (n : ResolvedNode) :
    (markup mode classOf path n).elements =
      (n.located path).map fun place => markup mode classOf place.1 place.2 := by
  induction n using ResolvedNode.nested generalizing path with
  | node n ih =>
      have nested : Markup.contentElements ((textContent n).1 ++
          childrenMarkup mode classOf path n.children ++ (textContent n).2) =
          (childrenMarkup mode classOf path n.children).flatMap Markup.elements := by
        rw [Markup.contentElements_eq_flatMap, List.flatMap_append, List.flatMap_append,
          (elements_textContent n).1, (elements_textContent n).2, List.nil_append, List.append_nil]
      rw [ResolvedNode.located_eq_flatMap, List.map_cons, List.map_flatMap, markup_eq,
        Markup.elements, nested, childrenMarkup_eq_map, List.flatMap_map]
      refine congrArg _ (List.flatMap_congr ?_)
      rintro ⟨child, i⟩ inChildren
      exact ih child (List.fst_mem_of_mem_zipIdx inChildren) _

theorem tag?_markup (path : List Nat) (n : ResolvedNode) :
    (markup mode classOf path n).tag? = some n.type := by
  rw [markup_eq]
  rfl

variable {mode classOf}

/-- An element has the class name of its position, whatever its props are called. -/
theorem attribute?_markup_className {path : List Nat} {className : String}
    (named : classOf path = some className) (n : ResolvedNode) :
    (markup mode classOf path n).attribute? "className" =
      some (.plain "className" className) := by
  have notData : (if n.data.isEmpty then []
      else [Attribute.value "data" (JavaScript.Expr.ofMap n.data)]).reverse.find?
        (fun a => a.name = "className") = none := by
    split <;> rfl
  rw [markup_eq, named, Markup.attribute?, attributes, List.reverse_append, List.reverse_append,
    List.find?_append, List.find?_append, notData]
  rfl

/-- The text opens with an element of the type, and the class name stands in its opening tag. -/
def OpensWithClass (text type className : String) : Prop :=
  ∃ (front : List Attribute) (rest : String),
    text = "<" ++ Jsx.tagText type front ++ " className=\"" ++ className ++ "\"" ++ rest

theorem opensWithClass_markup {path : List Nat} {className : String}
    (named : classOf path = some className) (n : ResolvedNode) :
    OpensWithClass ((markup mode classOf path n).render .paired) n.type className := by
  obtain ⟨front, back, split⟩ : ∃ front back, attributes mode (some className) n =
      front ++ .plain "className" className :: back := ⟨_, _, List.append_assoc ..⟩
  obtain ⟨rest, printed⟩ := Markup.exists_render_element_eq n.type front
    (.plain "className" className) back
    ((textContent n).1 ++ childrenMarkup mode classOf path n.children ++ (textContent n).2)
  refine ⟨front, rest, ?_⟩
  have opening : " " ++ ("className" ++ "=\"") = " className=\"" := rfl
  rw [markup_eq, named, split, printed, Attribute.text, ← opening]
  simp only [String.append_assoc]

/-! ## Components -/

/-- Class table, stylesheet and markup of a component go along with one list of places. -/
structure ClassesAgree (component : String) (root : ResolvedNode) : Prop where
  /-- The places are the positions that lead to a node, with the nodes that they lead to. -/
  places : ∀ path node, (path, node) ∈ root.located [] ↔ root.nodeAt? path = some node
  /-- They come in the order of the visit, each node in front of its children. -/
  ascending : (root.located []).Pairwise fun first second => first.1 < second.1
  /-- The class table has one entry for each of them and nothing else. -/
  entries : (Style.assignClasses component root).entries.map Prod.fst =
    (root.located []).map Prod.fst
  /-- Looking a position up misses only where there is no node. -/
  named : ∀ path, ((Style.assignClasses component root).get? path).isSome ↔
    (root.nodeAt? path).isSome
  /-- The stylesheet has one rule for each of them where the node has a declaration. -/
  rules : (Style.stylesheet root (Style.assignClasses component root)).rules.map
      (fun rule => (some rule.className, rule.declarations)) =
    ((root.located []).filter fun place => Style.isStyled place.2).map fun place =>
      ((Style.assignClasses component root).get? place.1, Style.declarations place.2.styleMap)
  /-- The markup has one element for each of them, which carries the class name. -/
  elements : (rootMarkup component root .classes).elements.map
      (fun element => (element.tag?, element.attribute? "className")) =
    (root.located []).map fun place =>
      (some place.2.type,
        ((Style.assignClasses component root).get? place.1).map (.plain "className"))
  /-- No element goes without a class name. -/
  carried : ∀ element ∈ (rootMarkup component root .classes).elements,
    ∃ className ∈ (Style.assignClasses component root).names,
      element.attribute? "className" = some (.plain "className" className)
  /-- The text of an element has the class name of its place in the opening tag. -/
  written : List.Forall₂
    (fun element place => ∃ className,
      (Style.assignClasses component root).get? place.1 = some className ∧
      OpensWithClass (element.render .paired) place.2.type className)
    (rootMarkup component root .classes).elements (root.located [])

/-- Every element is printed with the class name of its position in the table. -/
theorem attribute?_of_mem_located (component : String) {root : ResolvedNode}
    {place : List Nat × ResolvedNode} (located : place ∈ root.located []) :
    ∃ className, (Style.assignClasses component root).get? place.1 = some className ∧
      (markup .classes (Style.assignClasses component root).get? place.1
        place.2).attribute? "className" = some (.plain "className" className) := by
  obtain ⟨className, found⟩ :=
    Option.isSome_iff_exists.1 (Style.isSome_get?_of_mem_located component located)
  exact ⟨className, found, attribute?_markup_className found place.2⟩

theorem elements_rootMarkup (component : String) (root : ResolvedNode) :
    (rootMarkup component root .classes).elements =
      (root.located []).map fun place =>
        markup .classes (Style.assignClasses component root).get? place.1 place.2 :=
  elements_markup .classes (Style.assignClasses component root).get? [] root

/-- In class mode the class table, the stylesheet and the markup agree on every node. -/
theorem classesAgree (component : String) (root : ResolvedNode) :
    ClassesAgree component root where
  places _ _ := ResolvedNode.mem_located_nil_iff
  ascending := root.pairwise_position_lt
  entries := Style.positions_assignClasses component root
  named := Style.isSome_get?_assignClasses component root
  rules := Style.rules_stylesheet component root
  elements := by
    rw [elements_rootMarkup, List.map_map]
    refine List.map_congr_left fun place located => ?_
    obtain ⟨className, found, printed⟩ := attribute?_of_mem_located component located
    rw [Function.comp_apply, tag?_markup, printed, found]
    rfl
  carried := by
    rw [elements_rootMarkup]
    intro element member
    obtain ⟨place, located, rfl⟩ := List.mem_map.1 member
    obtain ⟨className, found, printed⟩ := attribute?_of_mem_located component located
    refine ⟨className, ?_, printed⟩
    rw [Style.names_assignClasses]
    exact List.mem_filterMap.2 ⟨place, located, found⟩
  written := by
    rw [elements_rootMarkup, List.forall₂_map_left_iff, List.forall₂_same]
    intro place located
    obtain ⟨className, found, -⟩ := attribute?_of_mem_located component located
    exact ⟨className, found, opensWithClass_markup found place.2⟩

end Generated

end ComponentGen
