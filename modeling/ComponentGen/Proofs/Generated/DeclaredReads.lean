import ComponentGen.Proofs.Generated.PrintedReads
import ComponentGen.Proofs.Generated.PrintedVariables
/-!
# Generated modules declare what they read

Whatever the markup of a component reads is a declared field of its interface, whichever field a
spelling ended up with when the placeholders were indexed. One declared field is enough for the
module to contain the interface block, and the block lists all of them. Where a style reference is
printed as a CSS variable, the style object of the root binds the variable to the style field. All of
this is said of the text of the module: of the reads, the variables and the bindings printed in it.
-/

namespace ComponentGen

open JavaScript (Expr)
open Jsx (Attribute Markup)
open Text (MadeOf Mentions)

/-- How the names of the fields of a category are written in an interface. -/
def Category.writeName : Category → String → String
  | style => JavaScript.quote
  | data => JavaScript.propertyKey

/-- The lines contain the block of a category, and the block lists the field. -/
def ListsField (lines : List String) (b : Binding) : Prop :=
  ∃ fields : List (String × String), b.key ∈ fields.map Prod.fst ∧
    ["  " ++ b.category.block ++ ": \x7b"] ++
      fields.map (fun (name, type) =>
        "    " ++ b.category.writeName name ++ ": " ++ type ++ ";") ++
      ["  \x7d;"] <:+: lines

namespace Generated

/-! ## The interface block -/

theorem fieldLines_of_mem {block : String} {writeName : String → String}
    {declared : Option (OrderedMap String)} {key : String}
    (member : key ∈ (declared.getD .empty).keys) :
    fieldLines block writeName declared =
      ["  " ++ block ++ ": \x7b"] ++
        (declared.getD .empty).entries.map (fun (name, type) =>
          "    " ++ writeName name ++ ": " ++ type ++ ";") ++
        ["  \x7d;"] := by
  rw [fieldLines]
  split
  · next none_here =>
      rw [OrderedMap.keys, none_here] at member
      cases member
  · rfl

theorem listsField_interfaceBlock {i : Interface} {b : Binding} (declared : i.Declares b)
    (name : String) : ListsField (interfaceBlock name i) b := by
  obtain ⟨category, key⟩ := b
  cases category with
  | style =>
      refine ⟨(i.styleFields.getD .empty).entries, declared, ["interface " ++ name ++ " \x7b"],
        fieldLines "data" JavaScript.propertyKey i.dataFields ++
          ["  children?: React.ReactNode;", "\x7d"], ?_⟩
      have lines : fieldLines "styleMap" JavaScript.quote i.styleFields = _ :=
        fieldLines_of_mem declared
      rw [interfaceBlock, lines]
      simp only [List.append_assoc]
      rfl
  | data =>
      refine ⟨(i.dataFields.getD .empty).entries, declared, ["interface " ++ name ++ " \x7b"] ++
        fieldLines "styleMap" JavaScript.quote i.styleFields,
          ["  children?: React.ReactNode;", "\x7d"], ?_⟩
      have lines : fieldLines "data" JavaScript.propertyKey i.dataFields = _ :=
        fieldLines_of_mem declared
      rw [interfaceBlock, lines]
      rfl

theorem hasInterfaceBlock_of_declares {i : Interface} {b : Binding} (declared : i.Declares b)
    (root : ResolvedNode) (options : Options) : hasInterfaceBlock i root options = true := by
  have hasFields : i.hasFields = true := by
    obtain ⟨category, key⟩ := b
    rw [Interface.hasFields, Bool.or_eq_true, Interface.hasStyleFields, Interface.hasDataFields,
      Bool.not_eq_true', Bool.not_eq_true', List.isEmpty_eq_false_iff_exists_mem,
      List.isEmpty_eq_false_iff_exists_mem]
    cases category with
    | style => exact .inl ⟨key, declared⟩
    | data => exact .inr ⟨key, declared⟩
  rw [hasInterfaceBlock, hasFields, Bool.true_or, Bool.true_or]

theorem interfaceBlock_infix_moduleLines {i : Interface} {b : Binding} (declared : i.Declares b)
    (name : String) (root : ResolvedNode) (options : Options) (hasStylesheet : Bool) :
    interfaceBlock name i <:+: moduleLines name i root options hasStylesheet := by
  rw [moduleLines, moduleHead, hasInterfaceBlock_of_declares declared, if_pos rfl]
  refine ⟨importLines (moduleImports name root options hasStylesheet) ++ [""],
    ["", "export const " ++ name ++ " = (props: " ++ name ++ ") => ("] ++
      ["  " ++ (rootMarkup name root options.styleMode).render .paired, ");"], ?_⟩
  simp only [List.append_assoc]

/-! ## Reads of a component -/

variable {n : Node} {i : Interface} {policy : CollisionPolicy} {index : PlaceholderIndex}

theorem declares_of_mem_ownReads (built : PlaceholderIndex.build i policy = .ok index)
    {node : ResolvedNode} (inTree : node ∈ (ResolvedNode.ofComponent n i index).preorder)
    {read : Binding} (member : read ∈ node.ownReads) : i.Declares read := by
  rw [ResolvedNode.ownReads, List.mem_append] at member
  rcases member with inReferences | inForwarded
  · obtain ⟨target, own, rfl⟩ := List.mem_map.1 inReferences
    have inComponent : target ∈ (ResolvedNode.ofComponent n i index).references :=
      List.mem_flatMap.2 ⟨node, inTree, own⟩
    exact ResolvedNode.declares_of_mem_references built inComponent
  · obtain ⟨field, forwarded, rfl⟩ := List.mem_map.1 inForwarded
    rw [ResolvedNode.preorder_eq] at inTree
    rcases List.mem_cons.1 inTree with rfl | below
    · exact forwarded
    · rw [ResolvedNode.forwarding_below n i index node below] at forwarded
      cases forwarded

/-- Every field that the markup of a component reads is declared. -/
theorem declares_of_mem_inputs (built : PlaceholderIndex.build i policy = .ok index)
    {name : String} {mode : StyleMode} {read : Binding}
    (member : read ∈ (rootMarkup name (ResolvedNode.ofComponent n i index) mode).inputs) :
    i.Declares read := by
  obtain ⟨node, inTree, own⟩ := List.mem_flatMap.1 (inputs_markup mode _ [] _ member)
  exact declares_of_mem_ownReads built inTree own

/-! ## Variables of a component -/

theorem member?_styleMembers {mode : StyleMode} {node : ResolvedNode} {field : String}
    (forwarded : field ∈ node.forwarding.getD []) :
    (Expr.object (styleMembers mode node)).member? field = some (.input .style field) := by
  have found := List.lookup_graph (fun field => Expr.input .style field)
    (List.mem_reverse.2 forwarded)
  rw [Expr.member?, styleMembers.eq_def, List.reverse_append, List.lookup_append,
    ← List.map_reverse, found, Option.some_or]

/-- What is forwarded is bound by the style object, whatever else the style object holds. -/
theorem styleBinding?_markup {mode : StyleMode} {classOf : List Nat → Option String}
    {path : List Nat} {node : ResolvedNode} {field : String}
    (forwarded : field ∈ node.forwarding.getD []) :
    (markup mode classOf path node).styleBinding? field = some (.input .style field) := by
  have found : (Expr.object (styleMembers mode node)).member? field = _ :=
    member?_styleMembers forwarded
  have last : (markup mode classOf path node).attribute? "style" =
      some (.value "style" (.object (styleMembers mode node))) := by
    rw [markup_eq, Markup.attribute?, attributes, List.reverse_append, List.reverse_append,
      List.reverse_append, List.find?_append, List.find?_append, List.find?_append]
    -- Neither the class name nor the data comes under the name of the style object.
    have notData : (if node.data.isEmpty then []
        else [Attribute.value "data" (Expr.ofMap node.data)]).reverse.find?
          (fun a => a.name = "style") = none := by
      split <;> rfl
    have notClass : ((classOf path).map fun name =>
        Attribute.plain "className" name).toList.reverse.find?
          (fun a => a.name = "style") = none := by
      cases classOf path <;> rfl
    rw [notData, notClass]
    cases members : styleMembers mode node with
    | nil =>
        rw [members] at found
        cases found
    | cons first rest => rfl
  rw [Markup.styleBinding?, last]
  exact found

/-- The text opens with the element of the node, and the style object of that element binds the
field by reading it. -/
def OpensWithBinding (text : String) (n : ResolvedNode) (field : String) : Prop :=
  ∃ (front back : List String) (rest : String),
    text = "<" ++ Jsx.tagText n.type (propAttributes n) ++ " style=\x7b\x7b " ++
      ", ".intercalate (front ++
        [JavaScript.propertyKey field ++ ": " ++ Binding.readText ⟨.style, field⟩] ++ back) ++
      " \x7d\x7d" ++ rest

/-- A forwarded field has its entry in the style object, however many others there are. -/
theorem exists_styleEntries_eq (mode : StyleMode) {node : ResolvedNode} {field : String}
    (forwarded : field ∈ node.forwarding.getD []) :
    ∃ front back, (Expr.entryTexts (styleMembers mode node)).map JavaScript.entryText =
      front ++ [JavaScript.propertyKey field ++ ": " ++ Binding.readText ⟨.style, field⟩] ++
        back := by
  have isMember : (field, Expr.input .style field) ∈ styleMembers mode node := by
    rw [styleMembers.eq_def]
    exact List.mem_append_right _ (List.mem_map_of_mem forwarded)
  obtain ⟨before, after, split⟩ := List.append_of_mem isMember
  rw [split, Expr.entryTexts_eq_map, List.map_append, List.map_append, List.map_cons,
    List.map_cons, List.append_cons]
  exact ⟨_, _, rfl⟩

theorem opensWithBinding_markup {mode : StyleMode} {classOf : List Nat → Option String}
    {path : List Nat} {node : ResolvedNode} {field : String}
    (forwarded : field ∈ node.forwarding.getD []) :
    OpensWithBinding ((markup mode classOf path node).render .paired) node field := by
  obtain ⟨front, back, entries⟩ := exists_styleEntries_eq mode forwarded
  have notEmpty : (Expr.entryTexts (styleMembers mode node)).isEmpty = false := by
    rw [List.isEmpty_eq_false_iff]
    intro none_here
    rw [none_here] at entries
    simp at entries
  have some_here : styleMembers mode node ≠ [] := by
    intro none_here
    rw [none_here] at notEmpty
    cases notEmpty
  obtain ⟨others, attributes⟩ := exists_attributes_eq some_here (classOf path)
  obtain ⟨rest, printed⟩ := Markup.exists_render_element_eq node.type (propAttributes node)
    (.value "style" (.object (styleMembers mode node))) others
    ((textContent node).1 ++ childrenMarkup mode classOf path node.children ++
      (textContent node).2)
  refine ⟨front, back, rest, ?_⟩
  have opening : " " ++ ("style" ++ "=" ++ ("\x7b" ++ "\x7b ")) = " style=\x7b\x7b " := rfl
  have closing : " \x7d" ++ "\x7d" = " \x7d\x7d" := rfl
  rw [markup_eq, attributes, printed, Attribute.text, Jsx.braced, Expr.text, JavaScript.objectText,
    notEmpty, if_neg Bool.false_ne_true, entries, ← opening, ← closing]
  simp only [String.append_assoc]

/-- What is declared as a style field is forwarded by the root, and so is every field whose variable
a component prints for a reference. -/
theorem forwarded_of_variableField? (built : PlaceholderIndex.build i policy = .ok index)
    {node : ResolvedNode} {e : Style.Entry} {field : String}
    (inTree : node ∈ (ResolvedNode.ofComponent n i index).preorder)
    (inStyles : e ∈ Style.entries node.styleMap) (printed : e.variableField? = some field) :
    field ∈ (ResolvedNode.ofComponent n i index).forwarding.getD [] := by
  obtain ⟨target, isReference, isField⟩ := exists_target_of_variableField? printed
  have inValue : target ∈ e.value.references := by
    rw [isReference]
    exact List.mem_singleton_self target
  have own : target ∈ node.ownReferences := by
    refine List.mem_append_left _ (List.mem_append_right _ ?_)
    exact mem_mapReferences (mem_entries_of_mem_entries inStyles) inValue
  have declared : i.Declares target.binding :=
    ResolvedNode.declares_of_mem_references built (List.mem_flatMap.2 ⟨node, inTree, own⟩)
  rw [isField] at declared
  exact declared

/-! ## Components -/

/-- The markup of a component is part of the text of its module. -/
theorem exists_moduleText_eq (name : String) (i : Interface) (root : ResolvedNode)
    (options : Options) (hasStylesheet : Bool) :
    ∃ front back, moduleText name i root options hasStylesheet =
      front ++ (rootMarkup name root options.styleMode).render .paired ++ back := by
  have opened : importLines (moduleImports name root options hasStylesheet) ++ [""] ++
      moduleHead name i (hasInterfaceBlock i root options) ≠ [] := by
    simp
  refine ⟨"\n".intercalate (importLines (moduleImports name root options hasStylesheet) ++ [""] ++
    moduleHead name i (hasInterfaceBlock i root options)) ++ "\n" ++ "  ",
    "\n" ++ "\n".intercalate [");"] ++ "\n", ?_⟩
  rw [moduleText, moduleLines, String.intercalate_append_of_ne_nil opened (List.cons_ne_nil _ _),
    String.intercalate_cons_cons]
  simp only [String.append_assoc]

/-- The module of a component declares what it reads: a field that its markup reads is listed by
the interface block in the module, and a CSS variable that is printed for a style reference, in the
stylesheet or in a style object, is bound to its field by the style object of the root. -/
structure DeclaresReads (name : String) (i : Interface) (root : ResolvedNode) (options : Options)
    (source : ComponentSource) : Prop where
  code : source.code =
    "\n".intercalate (moduleLines name i root options source.stylesheet.isSome) ++ "\n"
  stylesheet : source.stylesheet = (stylesheet? name root options.styleMode).map (·.text)
  /-- The module holds the text of the markup. -/
  markup : ∃ front back, source.code =
    front ++ (rootMarkup name root options.styleMode).render .paired ++ back
  /-- The text of the markup prints these reads, each as a member of the block of its field, and names
  and texts as they are given. Apart from quoted strings nothing else has a question mark. -/
  printed : MadeOf JavaScript.ReadsNothing Printed.text
    (rootMarkup name root options.styleMode).printed
    ((rootMarkup name root options.styleMode).render .paired)
  /-- The reads that are printed are those of the markup. -/
  printedReads : (rootMarkup name root options.styleMode).printed.filterMap Printed.read? =
    (rootMarkup name root options.styleMode).inputs
  reads : ∀ read ∈ (rootMarkup name root options.styleMode).inputs,
    i.Declares read ∧ ListsField (interfaceBlock name i) read ∧
      interfaceBlock name i <:+: moduleLines name i root options source.stylesheet.isSome
  /-- In class mode the variables of all style entries are in the stylesheet. -/
  sheetVariables : options.styleMode = .classes →
    Mentions Style.variableText (root.preorder.flatMap ResolvedNode.variables)
      (source.stylesheet.getD "")
  /-- In inline mode they are strings in the module. -/
  inlineVariables : options.styleMode = .inline →
    Mentions quotedVariable (root.preorder.flatMap ResolvedNode.variables) source.code
  bindings : ∀ node ∈ root.preorder, ∀ e ∈ Style.entries node.styleMap, ∀ field,
    e.variableField? = some field →
      e.declaration? = some ⟨Naming.camelToKebab e.name, Style.variableText field⟩ ∧
      e.inline? =
        some (Naming.kebabToCamel e.name, .literal (.string (Style.variableText field))) ∧
      (rootMarkup name root options.styleMode).styleBinding? field = some (.input .style field) ∧
      OpensWithBinding ((rootMarkup name root options.styleMode).render .paired) root field

theorem declaresReads_componentSource (built : PlaceholderIndex.build i policy = .ok index)
    (name : String) (options : Options) :
    DeclaresReads name i (ResolvedNode.ofComponent n i index) options
      (componentSource name i (ResolvedNode.ofComponent n i index) options) where
  code := by
    rw [componentSource, moduleText, Option.isSome_map]
  stylesheet := rfl
  markup := exists_moduleText_eq ..
  printed := Markup.madeOf_render _
  printedReads := Markup.reads_printed _
  reads := by
    intro read member
    have declared := declares_of_mem_inputs built member
    exact ⟨declared, listsField_interfaceBlock declared name,
      interfaceBlock_infix_moduleLines declared name _ options _⟩
  sheetVariables := by
    intro isClasses
    have whole := mentions_stylesheet name (ResolvedNode.ofComponent n i index)
    rwa [← isClasses] at whole
  inlineVariables := by
    intro isInline
    obtain ⟨front, back, code⟩ := exists_moduleText_eq name i
      (ResolvedNode.ofComponent n i index) options
      (stylesheet? name (ResolvedNode.ofComponent n i index) options.styleMode).isSome
    rw [componentSource]
    dsimp only
    rw [code, rootMarkup, isInline]
    exact ((mentions_markup _ [] _).prepend trivial).followedBy trivial
  bindings := by
    intro node inTree e inStyles field isVariable
    obtain ⟨declaration, inline⟩ := printed_of_variableField? isVariable
    have forwarded := forwarded_of_variableField? built inTree inStyles isVariable
    exact ⟨declaration, inline, styleBinding?_markup forwarded, opensWithBinding_markup forwarded⟩

end Generated

namespace Generator

/-- Whatever component is generated, its module declares what it reads. -/
theorem component_declaresReads {g : Generator} {d : Definition}
    {c : GeneratedComponent} (generated : g.component d = .ok c) :
    ∃ root, resolve d.node (g.interfaces.getOrEmpty d.name) g.options.collisionPolicy = .ok root ∧
      Generated.DeclaresReads d.name (g.interfaces.getOrEmpty d.name) root g.options c.source := by
  rw [component] at generated
  rw [resolve]
  cases built : PlaceholderIndex.build (g.interfaces.getOrEmpty d.name)
      g.options.collisionPolicy with
  | error collision =>
      rw [built] at generated
      cases generated
  | ok index =>
      rw [built] at generated
      cases generated
      exact ⟨_, rfl, Generated.declaresReads_componentSource built d.name g.options⟩

/-- A component whose data field takes a spelling of its style field over. -/
def clashGenerator : Generator where
  options := { styleMode := .inline, stories := false }
  interfaces := .ofList
    [((Interface.empty "Clash").withStyleField "--title" "string").withDataField "title" "string"]

/-- Both fields are used below the root. -/
def clashDefinition : Definition :=
  .ofNode "Clash"
    { type := "Box"
      children := .single
        { type := "Text"
          styleMap := .ofList [("color", .string "var(--title)")]
          data := .ofList [("content", .string "title")] } }

theorem component_declaresReads_clash :
    ∃ c, clashGenerator.component clashDefinition = .ok c ∧
      ∃ root, resolve clashDefinition.node (clashGenerator.interfaces.getOrEmpty "Clash")
          clashGenerator.options.collisionPolicy = .ok root ∧
        Generated.DeclaresReads "Clash" (clashGenerator.interfaces.getOrEmpty "Clash") root
          clashGenerator.options c.source := by
  have generated : clashGenerator.component clashDefinition = .ok _ := rfl
  exact ⟨_, generated, component_declaresReads generated⟩

end Generator

end ComponentGen
