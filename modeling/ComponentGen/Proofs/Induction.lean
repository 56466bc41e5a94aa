import ComponentGen.Resolved.Tree
/-!
# Induction over trees

JSON values, component trees and resolved trees nest through lists, members and children. Each
principle here hands the induction hypothesis to every direct part, so a proof about a tree has
one case per constructor and no cases for the lists in between.
-/

namespace ComponentGen

namespace Children

variable {α β : Type}

/-- A nested node is smaller than the children it is nested in. -/
theorem sizeOf_lt_of_mem [SizeOf α] {c : Children α} {node : α} (member : node ∈ c.toList) :
    sizeOf node < sizeOf c := by
  cases c with
  | absent => simp [toList] at member
  | single only =>
      rw [toList, List.mem_singleton] at member
      subst member
      simp
  | list nodes =>
      have smaller := List.sizeOf_lt_of_mem (show node ∈ nodes from member)
      simp only [list.sizeOf_spec]
      omega

/-- Changing the nested nodes twice is changing them once by both functions. -/
theorem map_map {γ : Type} (g : β → γ) (f : α → β) (c : Children α) :
    (c.map f).map g = c.map (g ∘ f) := by
  cases c with
  | absent => rfl
  | single node => rfl
  | list nodes => rw [map, map, map, List.map_map]

@[simp]
theorem map_id (c : Children α) : c.map id = c := by
  cases c with
  | absent => rfl
  | single node => rfl
  | list nodes => rw [map, List.map_id]

/-- Functions that agree on the nested nodes change the children in the same way. -/
theorem map_congr {f g : α → β} {c : Children α}
    (agree : ∀ node ∈ c.toList, f node = g node) : c.map f = c.map g := by
  cases c with
  | absent => rfl
  | single node =>
      rw [map, map, agree node (by simp [toList])]
  | list nodes =>
      rw [map, map, List.map_congr_left (show ∀ node ∈ nodes, f node = g node from agree)]

end Children

/-- Items are numbered in ascending order. -/
theorem pairwise_zipIdx {α : Type} (items : List α) :
    items.zipIdx.Pairwise fun first second => first.2 < second.2 := by
  have indices : (items.zipIdx.map Prod.snd).Pairwise (· < ·) := by
    rw [List.zipIdx_map_snd]
    exact List.pairwise_lt_range'
  exact List.pairwise_map.1 indices

/-- Induction over JSON values: the hypothesis holds of all items and of all values of members. -/
@[elab_as_elim]
theorem Json.nested {motive : Json → Prop}
    (null : motive .null) (bool : ∀ b, motive (.bool b)) (number : ∀ n, motive (.number n))
    (string : ∀ s, motive (.string s))
    (array : ∀ items, (∀ item ∈ items, motive item) → motive (.array items))
    (object : ∀ members, (∀ member ∈ members, motive member.2) → motive (.object members)) :
    ∀ value, motive value
  | .null => null
  | .bool b => bool b
  | .number n => number n
  | .string s => string s
  | .array items => array items fun item _ =>
      nested null bool number string array object item
  | .object members => object members fun member _ =>
      nested null bool number string array object member.2
termination_by value => sizeOf value
decreasing_by
  · have smaller := List.sizeOf_lt_of_mem ‹item ∈ items›
    simp only [Json.array.sizeOf_spec]
    omega
  · have smaller := List.sizeOf_lt_of_mem ‹member ∈ members›
    obtain ⟨key, value⟩ := member
    simp only [Json.object.sizeOf_spec, Prod.mk.sizeOf_spec] at smaller ⊢
    omega

/-- Induction over resolved values: the hypothesis holds of all items and of all values of
members. -/
@[elab_as_elim]
theorem ResolvedValue.nested {motive : ResolvedValue → Prop}
    (literal : ∀ value, motive (.literal value)) (reference : ∀ target, motive (.reference target))
    (array : ∀ items, (∀ item ∈ items, motive item) → motive (.array items))
    (object : ∀ members, (∀ member ∈ members, motive member.2) → motive (.object members)) :
    ∀ value, motive value
  | .literal value => literal value
  | .reference target => reference target
  | .array items => array items fun item _ => nested literal reference array object item
  | .object members => object members fun member _ =>
      nested literal reference array object member.2
termination_by value => sizeOf value
decreasing_by
  · have smaller := List.sizeOf_lt_of_mem ‹item ∈ items›
    simp only [ResolvedValue.array.sizeOf_spec]
    omega
  · have smaller := List.sizeOf_lt_of_mem ‹member ∈ members›
    obtain ⟨key, value⟩ := member
    simp only [ResolvedValue.object.sizeOf_spec, Prod.mk.sizeOf_spec] at smaller ⊢
    omega

/-- A nested node is smaller than the node that it is nested in. -/
theorem Node.sizeOf_lt_of_mem_childNodes {n child : Node} (member : child ∈ n.childNodes) :
    sizeOf child < sizeOf n := by
  have inChildren := Children.sizeOf_lt_of_mem (show child ∈ n.children.toList from member)
  have inNode : sizeOf n.children < sizeOf n := by
    cases n
    simp only [Node.mk.sizeOf_spec]
    omega
  omega

/-- Induction over component trees: the hypothesis holds of all nested nodes. Overlays are not
descended into. -/
@[elab_as_elim]
theorem Node.nested {motive : Node → Prop}
    (node : ∀ n : Node, (∀ child ∈ n.childNodes, motive child) → motive n)
    (n : Node) : motive n :=
  node n fun child _ => nested node child
termination_by sizeOf n
decreasing_by exact sizeOf_lt_of_mem_childNodes ‹child ∈ n.childNodes›

/-- Induction over resolved trees: the hypothesis holds of all nested nodes. -/
@[elab_as_elim]
theorem ResolvedNode.nested {motive : ResolvedNode → Prop}
    (node : ∀ n : ResolvedNode, (∀ child ∈ n.childNodes, motive child) → motive n)
    (n : ResolvedNode) : motive n :=
  node n fun child _ => nested node child
termination_by sizeOf n
decreasing_by
  have inChildren := Children.sizeOf_lt_of_mem (show child ∈ n.children.toList from ‹_›)
  have inNode : sizeOf n.children < sizeOf n := by
    cases n
    simp only [ResolvedNode.mk.sizeOf_spec]
    omega
  omega

end ComponentGen
