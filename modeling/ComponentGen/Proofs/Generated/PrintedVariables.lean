import ComponentGen.Proofs.Generated.ClassMarkup
import ComponentGen.Proofs.Text.Pieces
/-!
# CSS variables in printed styles

Where a style entry refers to a style field, the use of the CSS variable of the field is printed: in
the stylesheet in class mode, and as a string of a style object in inline mode. Node by node and entry
by entry, the variables of all such entries are in the text.
-/

namespace ComponentGen

open JavaScript (Expr)
open Jsx (Attribute Markup)
open Text (MadeOf Mentions)

/-- The style field whose CSS variable is printed for the value of a style entry. -/
def Style.Entry.variableField? (e : Style.Entry) : Option String :=
  match e.value with
  | .reference target => if target.category = .style then some target.key else none
  | _ => none

/-- The style fields whose CSS variables are printed for the styles of a node. -/
def ResolvedNode.variables (n : ResolvedNode) : List String :=
  (Style.entries n.styleMap).filterMap Style.Entry.variableField?

namespace Generated

theorem exists_target_of_variableField? {e : Style.Entry} {field : String}
    (printed : e.variableField? = some field) :
    ∃ target : Reference, e.value = .reference target ∧ target.binding = ⟨.style, field⟩ := by
  unfold Style.Entry.variableField? at printed
  split at printed
  · next target isReference =>
      split at printed
      · next isStyle =>
          cases printed
          refine ⟨target, isReference, ?_⟩
          rw [Reference.binding, isStyle]
      · cases printed
  · cases printed

/-- The variable that is printed is the one of the field, in a stylesheet and in a style object. -/
theorem printed_of_variableField? {e : Style.Entry} {field : String}
    (printed : e.variableField? = some field) :
    e.declaration? = some ⟨Naming.camelToKebab e.name, Style.variableText field⟩ ∧
      e.inline? =
        some (Naming.kebabToCamel e.name, .literal (.string (Style.variableText field))) := by
  obtain ⟨⟨category, key, surface, cssVariable⟩, isReference, isField⟩ :=
    exists_target_of_variableField? printed
  cases isField
  rw [Style.Entry.declaration?, Style.Entry.inline?, isReference]
  exact ⟨rfl, rfl⟩

/-- The variables of a node are written entry by entry. -/
theorem variables_eq_flatMap (n : ResolvedNode) :
    n.variables = (Style.entries n.styleMap).flatMap fun e => e.variableField?.toList :=
  List.filterMap_eq_flatMap_toList _ _

/-! ## Stylesheets -/

theorem mentions_declarations (n : ResolvedNode) :
    Mentions Style.variableText n.variables
      (String.join ((Style.declarations n.styleMap).map fun d => "  " ++ d.text ++ "\n")) := by
  rw [variables_eq_flatMap, Style.declarations, List.map_filterMap]
  refine MadeOf.join_filterMap trivial fun e _ => ?_
  cases printed : e.variableField? with
  | none => exact .other trivial
  | some field =>
      rw [(printed_of_variableField? printed).1]
      have used : Mentions Style.variableText [field] (Style.variableText field) := .item field
      exact ((((used.prepend trivial).followedBy trivial)).prepend trivial).followedBy trivial

/-- The rule of a node prints its variables, and a node without a rule has none. -/
theorem mentions_rule (component : String) {root : ResolvedNode}
    {place : List Nat × ResolvedNode} (located : place ∈ root.located []) :
    Mentions Style.variableText place.2.variables
      (((Style.ruleOf? (Style.assignClasses component root) place.1 place.2).map
        Style.Rule.text).getD "") := by
  obtain ⟨className, found⟩ :=
    Option.isSome_iff_exists.1 (Style.isSome_get?_of_mem_located component located)
  have inside := mentions_declarations place.2
  rw [Style.ruleOf?, found]
  cases declared : Style.declarations place.2.styleMap with
  | nil =>
      rw [declared] at inside
      exact inside
  | cons d rest =>
      rw [declared] at inside
      exact (inside.prepend trivial).followedBy trivial

/-- The stylesheet of a component in class mode mentions all variables of its tree. -/
theorem mentions_stylesheet (component : String) (root : ResolvedNode) :
    Mentions Style.variableText (root.preorder.flatMap ResolvedNode.variables)
      (((stylesheet? component root .classes).map (·.text)).getD "") := by
  have rules : Mentions Style.variableText (root.preorder.flatMap ResolvedNode.variables)
      (Style.stylesheet root (Style.assignClasses component root)).text := by
    rw [Style.Stylesheet.text, Style.stylesheet, List.map_filterMap, ResolvedNode.preorder,
      List.flatMap_map]
    exact MadeOf.intercalate_filterMap trivial trivial fun place located =>
      mentions_rule component located
  rw [stylesheet?, classTable?, Option.bind_some]
  dsimp only
  split
  · next isEmpty =>
      rw [Style.Stylesheet.isEmpty, List.isEmpty_iff] at isEmpty
      rwa [Style.Stylesheet.text, isEmpty] at rules
  · exact rules

/-! ## Style objects -/

/-- The use of a CSS variable as a string. -/
def quotedVariable (field : String) : String :=
  JavaScript.quote (Style.variableText field)

theorem variables_eq_nil {n : ResolvedNode} (none_here : styleMembers .inline n = []) :
    n.variables = [] := by
  have noEntries : Style.inlineEntries n.styleMap = [] := (List.append_eq_nil_iff.1 none_here).1
  refine List.filterMap_eq_nil_iff.2 fun e member => ?_
  cases printed : e.variableField? with
  | none => rfl
  | some field =>
      have notPrinted := List.filterMap_eq_nil_iff.1 noEntries e member
      rw [(printed_of_variableField? printed).2] at notPrinted
      cases notPrinted

theorem mentions_styleObject (n : ResolvedNode) :
    Mentions quotedVariable n.variables (Expr.object (styleMembers .inline n)).text := by
  have own : Mentions quotedVariable n.variables (", ".intercalate
      (((Style.inlineEntries n.styleMap).map fun entry => (entry.1, entry.2.text)).map
        JavaScript.entryText)) := by
    rw [variables_eq_flatMap, List.map_map, Style.inlineEntries, List.map_filterMap]
    refine MadeOf.intercalate_filterMap trivial trivial fun e _ => ?_
    cases printed : e.variableField? with
    | none => exact .other trivial
    | some field =>
        rw [(printed_of_variableField? printed).2]
        have used : Mentions quotedVariable [field] (quotedVariable field) := .item field
        exact used.prepend trivial
  have forwarded : Mentions quotedVariable [] (", ".intercalate
      ((((n.forwarding.getD []).map fun field => (field, Expr.input .style field)).map
        fun entry => (entry.1, entry.2.text)).map JavaScript.entryText)) := .other trivial
  have inside := MadeOf.intercalate_append trivial own forwarded
  rw [List.append_nil, ← List.map_append, ← List.map_append] at inside
  rw [Expr.text, Expr.entryTexts_eq_map, JavaScript.objectText]
  split
  · next isEmpty =>
      rw [variables_eq_nil (List.map_eq_nil_iff.1 (List.isEmpty_iff.1 isEmpty))]
      exact .other trivial
  · exact (inside.prepend trivial).followedBy trivial

/-- The opening tag of an element in inline mode mentions the variables of its node. -/
theorem mentions_tagText (className : Option String) (n : ResolvedNode) :
    Mentions quotedVariable n.variables
      (Jsx.tagText n.type (attributes .inline className n)) := by
  by_cases none_here : styleMembers .inline n = []
  · rw [variables_eq_nil none_here]
    exact .other trivial
  · obtain ⟨back, attributes⟩ := exists_attributes_eq none_here className
    obtain ⟨others, opening⟩ := Jsx.exists_tagText_eq n.type (propAttributes n)
      (.value "style" (.object (styleMembers .inline n))) back
    rw [attributes, opening]
    have style : Mentions quotedVariable n.variables
        (Jsx.braced (.object (styleMembers .inline n))) :=
      ((mentions_styleObject n).prepend trivial).followedBy trivial
    exact ((style.prepend trivial).prepend trivial).followedBy trivial

/-- The markup of a tree in inline mode mentions all variables of the tree. -/
theorem mentions_markup (classOf : List Nat → Option String) (path : List Nat) (n : ResolvedNode) :
    Mentions quotedVariable (n.preorder.flatMap ResolvedNode.variables)
      ((markup .inline classOf path n).render .paired) := by
  induction n using ResolvedNode.nested generalizing path with
  | node n ih =>
      have children : Mentions quotedVariable
          (n.childNodes.flatMap fun child => child.preorder.flatMap ResolvedNode.variables)
          (Markup.renderAll .paired (childrenMarkup .inline classOf path n.children)) := by
        rw [Markup.renderAll_eq_join, childrenMarkup_eq_map, List.map_map,
          ← List.zipIdx_map_fst 0 n.childNodes, List.flatMap_map]
        refine MadeOf.join trivial fun child inChildren => ?_
        exact ih child.1 (List.fst_mem_of_mem_zipIdx inChildren) _
      rw [markup_eq, Markup.render_element, Markup.renderAll_append, Markup.renderAll_append,
        ResolvedNode.preorder_eq, List.flatMap_cons, List.flatMap_assoc]
      have opening := mentions_tagText (classOf path) n
      exact (((((opening.prepend trivial).followedBy trivial).append
        ((children.prepend trivial).followedBy trivial)).followedBy trivial).followedBy
          trivial).followedBy trivial

end Generated

end ComponentGen
