import ComponentGen.Style.Declaration
/-!
# Class names and stylesheets

Every node of a component gets a class name from its position: the root is named after the
component, a child after its parent's class and type, and a child in a list also after its index.
The stylesheet of a component has one rule for each node with a style declaration.
-/

namespace ComponentGen.Style

/-- The class name of the root of a component. -/
def rootClass (component : String) : String :=
  Text.lowerCase component ++ "-root"

/-- What the class names of the children of a node start with. -/
def childStem (className type : String) : String :=
  className ++ "-" ++ Text.lowerCase type

/-- The class name of the child with index `i` in a list. -/
def listClass (stem : String) (i : Nat) : String :=
  stem ++ "-" ++ toString i

/-- Class names by position. -/
structure ClassTable where
  entries : List (List Nat × String)
deriving DecidableEq

namespace ClassTable

/-- The class name of the node at a position. -/
def get? (table : ClassTable) (path : List Nat) : Option String :=
  table.entries.lookup path

/-- The class names in the order of the nodes, each node in front of its children. -/
def names (table : ClassTable) : List String :=
  table.entries.map Prod.snd

/-- How many nodes have a class name. -/
def size (table : ClassTable) : Nat :=
  table.entries.length

end ClassTable

mutual

/-- The class names of a node and all nodes below it, when the node at `path` has the given
name. -/
def classesFrom (path : List Nat) (className : String) :
    ResolvedNode → List (List Nat × String)
  | ⟨type, _, _, _, children, _⟩ =>
    (path, className) :: childClasses path (childStem className type) children

/-- The class names of the given children and all nodes below them. -/
def childClasses (path : List Nat) (stem : String) :
    Children ResolvedNode → List (List Nat × String)
  | .absent => []
  | .single node => classesFrom (path ++ [0]) stem node
  | .list nodes => listClasses path stem 0 nodes

/-- The class names of the nodes of a list, the first of which has the index `i`. -/
def listClasses (path : List Nat) (stem : String) (i : Nat) :
    List ResolvedNode → List (List Nat × String)
  | [] => []
  | node :: rest =>
    classesFrom (path ++ [i]) (listClass stem i) node ++ listClasses path stem (i + 1) rest

end

/-- The class names of all nodes of a component. -/
def assignClasses (component : String) (root : ResolvedNode) : ClassTable :=
  ⟨classesFrom [] (rootClass component) root⟩

/-- A rule of a stylesheet. -/
structure Rule where
  className : String
  declarations : List Declaration
deriving DecidableEq, Repr

/-- The text of a rule. -/
def Rule.text (rule : Rule) : String :=
  "." ++ rule.className ++ " \x7b\n"
    ++ String.join (rule.declarations.map fun d => "  " ++ d.text ++ "\n")
    ++ "\x7d\n"

/-- The rules of a component. -/
structure Stylesheet where
  rules : List Rule
deriving DecidableEq, Repr

namespace Stylesheet

/-- There is no rule. -/
def isEmpty (sheet : Stylesheet) : Bool :=
  sheet.rules.isEmpty

/-- The text of a stylesheet, with an empty line between rules. -/
def text (sheet : Stylesheet) : String :=
  "\n".intercalate (sheet.rules.map Rule.text)

end Stylesheet

/-- The rule of the node at a position, if the node has a declaration and a class name. -/
def ruleOf? (classes : ClassTable) (path : List Nat) (node : ResolvedNode) : Option Rule :=
  match declarations node.styleMap, classes.get? path with
  | d :: ds, some className => some ⟨className, d :: ds⟩
  | _, _ => none

/-- The stylesheet of a component, node by node. -/
def stylesheet (root : ResolvedNode) (classes : ClassTable) : Stylesheet :=
  ⟨(root.located []).filterMap fun (path, node) => ruleOf? classes path node⟩

end ComponentGen.Style
