import ComponentGen.JavaScript.Expr
/-!
# Style declarations

A node's resolved style map gives CSS declarations for a stylesheet, or the entries of an inline
style object. Both start from the same expanded entries: an axis shorthand stands for the two
properties of its axis, and properties without a CSS form are dropped.
-/

namespace ComponentGen.Style

/-- Style properties that have no CSS form. -/
def droppedKeys : List String :=
  ["shadowOffset", "shadowOffsetX", "shadowOffsetY", "shadowColor", "shadowOpacity",
    "shadowRadius", "elevation", "numberOfLines"]

/-- Style properties whose numbers take no unit. -/
def unitlessKeys : List String :=
  ["opacity", "zIndex", "fontWeight", "lineHeight", "flex", "flexGrow", "flexShrink", "order"]

/-- The two properties that an axis shorthand stands for. -/
def axisExpansion? (key : String) : Option (String × String) :=
  if key = "marginHorizontal" then some ("marginLeft", "marginRight")
  else if key = "marginVertical" then some ("marginTop", "marginBottom")
  else if key = "paddingHorizontal" then some ("paddingLeft", "paddingRight")
  else if key = "paddingVertical" then some ("paddingTop", "paddingBottom")
  else none

/-- A style entry after the expansion of shorthands: the name of the property, the key that it
comes from, and the value. -/
structure Entry where
  name : String
  key : String
  value : ResolvedValue

/-- The entries that one member of a style map stands for. -/
def expand (key : String) (value : ResolvedValue) : List Entry :=
  match axisExpansion? key with
  | some (first, second) => [⟨first, key, value⟩, ⟨second, key, value⟩]
  | none => if droppedKeys.contains key then [] else [⟨key, key, value⟩]

/-- The entries of a style map, in order. -/
def entries (styleMap : OrderedMap ResolvedValue) : List Entry :=
  styleMap.entries.flatMap fun (key, value) => expand key value

/-- A number under this key takes no unit; the key may be in kebab case. -/
def isUnitless (key : String) : Bool :=
  unitlessKeys.contains key || unitlessKeys.contains (Naming.kebabToCamel key)

/-- The use of a CSS variable. -/
def variableText (name : String) : String :=
  "var(" ++ name ++ ")"

/-- The CSS text of a value, if it has one. A style field becomes the CSS variable of its name, a
data field keeps the spelling of its placeholder, and a number gets a unit unless its key takes
none. -/
def cssValue? (value : ResolvedValue) (key : String) : Option String :=
  match value with
  | .reference target =>
    match target.category with
    | .style => some (variableText target.key)
    | .data => some target.surface
  | .literal (.string s) => some s
  | .literal (.number n) =>
    let number := JavaScript.numberText n
    some (if isUnitless key then number else number ++ "px")
  | .literal (.bool b) => some (if b then "true" else "false")
  | .literal .null | .literal (.array _) | .literal (.object _) | .array _ | .object _ => none

/-- One CSS declaration. -/
structure Declaration where
  property : String
  value : String
deriving DecidableEq, Repr

/-- The text of a declaration. -/
def Declaration.text (d : Declaration) : String :=
  d.property ++ ": " ++ d.value ++ ";"

/-- The declaration of an entry, if its value has a CSS text. -/
def Entry.declaration? (e : Entry) : Option Declaration :=
  (cssValue? e.value e.key).map fun value => ⟨Naming.camelToKebab e.name, value⟩

/-- The CSS declarations of a style map, in order. -/
def declarations (styleMap : OrderedMap ResolvedValue) : List Declaration :=
  (entries styleMap).filterMap Entry.declaration?

/-- The expression of a value in an inline style object, if it has one. A style field becomes the
CSS variable of its name; a data field is read from the component's input. -/
def inlineValue? (value : ResolvedValue) : Option JavaScript.Expr :=
  match value with
  | .reference target =>
    match target.category with
    | .style => some (.literal (.string (variableText target.key)))
    | .data => some (.input .data target.key)
  | .literal .null => none
  | .literal value => some (.literal value)
  | .array _ | .object _ => none

/-- The member of an inline style object for an entry, if its value has an expression. -/
def Entry.inline? (e : Entry) : Option (String × JavaScript.Expr) :=
  (inlineValue? e.value).map fun value => (Naming.kebabToCamel e.name, value)

/-- The members of the inline style object of a style map, in order. -/
def inlineEntries (styleMap : OrderedMap ResolvedValue) : List (String × JavaScript.Expr) :=
  (entries styleMap).filterMap Entry.inline?

end ComponentGen.Style
