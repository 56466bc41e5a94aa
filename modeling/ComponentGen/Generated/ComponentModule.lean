import ComponentGen.Generated.Import
import ComponentGen.Jsx.Markup
import ComponentGen.Options
import ComponentGen.Style.Stylesheet
/-!
# Component modules

The source of one generated component: its imports, the interface block of its props when it has
one, and the exported component that returns the markup of its tree. The markup is built as a
tree; the stylesheet and the class names come from `Style.Stylesheet`.
-/

namespace ComponentGen.Generated

open JavaScript (Expr)
open Jsx (Attribute Markup)

/-! ## Markup -/

/-- The attribute for a prop: true is written as the name alone, false is left out. -/
def propAttribute? (key : String) (value : ResolvedValue) : Option Attribute :=
  match value with
  | .literal (.bool true) => some (.flag key)
  | .literal (.bool false) => none
  | value => some (.value key (Expr.ofValue value))

/-- The members of an element's style object: its own styles in inline mode, then the style fields
that a root forwards. -/
def styleMembers (mode : StyleMode) (n : ResolvedNode) : List (String × Expr) :=
  (match mode with
    | .inline => Style.inlineEntries n.styleMap
    | .classes => []) ++
  (n.forwarding.getD []).map fun field => (field, .input .style field)

/-- The attributes of an element: props, style object, class name, data. -/
def attributes (mode : StyleMode) (className : Option String) (n : ResolvedNode) :
    List Attribute :=
  n.props.entries.filterMap (fun (key, value) => propAttribute? key value) ++
  (match styleMembers mode n with
    | [] => []
    | members => [.value "style" (.object members)]) ++
  (className.map fun name => .plain "className" name).toList ++
  (if n.data.isEmpty then [] else [.value "data" (Expr.ofMap n.data)])

/-- The text content of an element, from the data field that holds it. Text that would be read as
markup is inserted as a string. -/
def contentMarkup : ResolvedValue → List Markup
  | .reference target => [.insert (.input target.category target.key)]
  | .literal (.string s) =>
    if s.toList.any Jsx.isMarkup then [.insert (.literal (.string s))] else [.text s]
  | .literal (.number n) => [.text (JavaScript.numberText n)]
  | _ => []

/-- What an element holds besides its nested elements: its text content in front of them and, for
the root, the content nested in the component behind them. -/
def textContent (n : ResolvedNode) : List Markup × List Markup :=
  (((n.data.get? "content").map contentMarkup).getD [],
    if n.isRoot then [.insert .nested] else [])

mutual

/-- The markup of the node at a position and of everything below it. `classOf` gives the class
names by position. -/
def markup (mode : StyleMode) (classOf : List Nat → Option String) (path : List Nat) :
    ResolvedNode → Markup
  | ⟨type, props, styleMap, data, children, forwarding⟩ =>
    let n : ResolvedNode := ⟨type, props, styleMap, data, children, forwarding⟩
    .element type (attributes mode (classOf path) n)
      ((textContent n).1 ++ childrenMarkup mode classOf path children ++ (textContent n).2)

/-- The markup of the given children. -/
def childrenMarkup (mode : StyleMode) (classOf : List Nat → Option String) (path : List Nat) :
    Children ResolvedNode → List Markup
  | .absent => []
  | .single node => [markup mode classOf (path ++ [0]) node]
  | .list nodes => listMarkup mode classOf path 0 nodes

/-- The markup of the nodes of a list, the first of which has the index `i`. -/
def listMarkup (mode : StyleMode) (classOf : List Nat → Option String) (path : List Nat) (i : Nat) :
    List ResolvedNode → List Markup
  | [] => []
  | node :: rest =>
    markup mode classOf (path ++ [i]) node :: listMarkup mode classOf path (i + 1) rest

end

/-! ## The module -/

/-- The lines of one block of fields in an interface; a block without fields is left out. -/
def fieldLines (block : String) (writeName : String → String)
    (fields : Option (OrderedMap String)) : List String :=
  match (fields.getD .empty).entries with
  | [] => []
  | entries =>
    ["  " ++ block ++ ": \x7b"] ++
    entries.map (fun (name, type) => "    " ++ writeName name ++ ": " ++ type ++ ";") ++
    ["  \x7d;"]

/-- The lines of the interface that a component module declares for its props. -/
def interfaceBlock (name : String) (i : Interface) : List String :=
  ["interface " ++ name ++ " \x7b"] ++
  fieldLines "styleMap" JavaScript.quote i.styleFields ++
  fieldLines "data" JavaScript.propertyKey i.dataFields ++
  ["  children?: React.ReactNode;", "\x7d"]

/-- The component types that a tree instantiates; an empty type is none. -/
def instantiatedTypes (root : ResolvedNode) : List String :=
  (root.preorder.map (·.type)).filter (· != "")

/-- The component declares an interface for its props. -/
def hasInterfaceBlock (i : Interface) (root : ResolvedNode) (options : Options) : Bool :=
  i.hasFields || i.acceptsChildren || options.isContainer root.type

/-- The class names of a component in class mode; inline mode has none. -/
def classTable? (name : String) (root : ResolvedNode) (mode : StyleMode) :
    Option Style.ClassTable :=
  match mode with
  | .classes => some (Style.assignClasses name root)
  | .inline => none

/-- The stylesheet of a component, if it has any rule. -/
def stylesheet? (name : String) (root : ResolvedNode) (mode : StyleMode) :
    Option Style.Stylesheet :=
  (classTable? name root mode).bind fun classes =>
    let sheet := Style.stylesheet root classes
    if sheet.isEmpty then none else some sheet

/-- The markup that a component returns. -/
def rootMarkup (name : String) (root : ResolvedNode) (mode : StyleMode) : Markup :=
  markup mode (fun path => (classTable? name root mode).bind (·.get? path)) [] root

/-- The imports of a component module. -/
def moduleImports (name : String) (root : ResolvedNode) (options : Options)
    (hasStylesheet : Bool) : List Import :=
  [.whole "React" "react"] ++
  (sortedDistinct (instantiatedTypes root)).map (.inFolder options.componentsImportPath) ++
  (if hasStylesheet then [.stylesheet ("./" ++ name ++ ".css")] else [])

/-- The lines that open the component. -/
def moduleHead (name : String) (i : Interface) (withInterface : Bool) : List String :=
  if withInterface then
    interfaceBlock name i ++
      ["", "export const " ++ name ++ " = (props: " ++ name ++ ") => ("]
  else
    ["export const " ++ name ++ " = (props: \x7b children?: React.ReactNode \x7d) => ("]

/-- The lines of a component module. -/
def moduleLines (name : String) (i : Interface) (root : ResolvedNode) (options : Options)
    (hasStylesheet : Bool) : List String :=
  importLines (moduleImports name root options hasStylesheet) ++ [""] ++
    moduleHead name i (hasInterfaceBlock i root options) ++
    ["  " ++ (rootMarkup name root options.styleMode).render .paired, ");"]

/-- The source of a component module. -/
def moduleText (name : String) (i : Interface) (root : ResolvedNode) (options : Options)
    (hasStylesheet : Bool) : String :=
  "\n".intercalate (moduleLines name i root options hasStylesheet) ++ "\n"

/-- The generated source of a component. -/
structure ComponentSource where
  name : String
  /-- The component module. -/
  code : String
  /-- The stylesheet, when the component has any rule. -/
  stylesheet : Option String
deriving DecidableEq, Repr

/-- Generate the source of a component. -/
def componentSource (name : String) (i : Interface) (root : ResolvedNode) (options : Options) :
    ComponentSource :=
  let sheet := stylesheet? name root options.styleMode
  { name
    code := moduleText name i root options sheet.isSome
    stylesheet := sheet.map (·.text) }

end ComponentGen.Generated
