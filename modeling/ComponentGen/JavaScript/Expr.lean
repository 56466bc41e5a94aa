import ComponentGen.JavaScript.Literal
import ComponentGen.Resolved.Tree
/-!
# JavaScript expressions

The expressions that occur in generated components: literals, reads of the component's own input,
and arrays and objects of these. `Expr.text` writes them.
-/

namespace ComponentGen.JavaScript

/-- An expression in a generated component. -/
inductive Expr where
  | literal (value : Json)
  /-- A field of the component's own input; the whole block of the field may be missing. -/
  | input (category : Category) (key : String)
  /-- The content nested in the component. -/
  | nested
  | array (items : List Expr)
  | object (entries : List (String × Expr))

namespace Expr

instance : Inhabited Expr := ⟨nested⟩

/-- The object that holds one block of the component's input. -/
def inputObject (category : Category) : String :=
  "props." ++ category.block

mutual

/-- The text of an expression. -/
def text : Expr → String
  | literal value => JavaScript.literal value
  | input category key => optionalMember (inputObject category) key
  | nested => "props.children"
  | array items => arrayText (texts items)
  | object entries => objectText (entryTexts entries)

/-- The texts of several expressions. -/
def texts : List Expr → List String
  | [] => []
  | item :: rest => text item :: texts rest

/-- The entries of an object, each value as text. -/
def entryTexts : List (String × Expr) → List (String × String)
  | [] => []
  | (key, value) :: rest => (key, text value) :: entryTexts rest

end

/-- The items of an array are written one by one. -/
theorem texts_eq_map (items : List Expr) : texts items = items.map text := by
  induction items with
  | nil => simp [texts]
  | cons item rest ih => simp [texts, ih]

/-- The entries of an object are written one by one. -/
theorem entryTexts_eq_map (entries : List (String × Expr)) :
    entryTexts entries = entries.map fun entry => (entry.1, entry.2.text) := by
  induction entries with
  | nil => simp [entryTexts]
  | cons entry rest ih => simp [entryTexts, ih]

mutual

/-- The expression of a resolved value: a reference reads the input. -/
def ofValue : ResolvedValue → Expr
  | .literal value => literal value
  | .reference target => input target.category target.key
  | .array items => array (ofItems items)
  | .object members => object (ofMembers members)

/-- The expressions of several resolved values. -/
def ofItems : List ResolvedValue → List Expr
  | [] => []
  | item :: rest => ofValue item :: ofItems rest

/-- The entries of an object of resolved values. -/
def ofMembers : List (String × ResolvedValue) → List (String × Expr)
  | [] => []
  | (key, value) :: rest => (key, ofValue value) :: ofMembers rest

end

/-- The items of an array become expressions one by one. -/
theorem ofItems_eq_map (items : List ResolvedValue) : ofItems items = items.map ofValue := by
  induction items with
  | nil => simp [ofItems]
  | cons item rest ih => simp [ofItems, ih]

/-- The members of an object become expressions one by one. -/
theorem ofMembers_eq_map (members : List (String × ResolvedValue)) :
    ofMembers members = members.map fun member => (member.1, ofValue member.2) := by
  induction members with
  | nil => simp [ofMembers]
  | cons member rest ih => simp [ofMembers, ih]

/-- The object literal of a map of resolved values. -/
def ofMap (m : OrderedMap ResolvedValue) : Expr :=
  object (ofMembers m.entries)

mutual

/-- The fields of the input that an expression reads, in order. -/
def inputs : Expr → List Binding
  | literal _ => []
  | input category key => [⟨category, key⟩]
  | nested => []
  | array items => itemInputs items
  | object entries => entryInputs entries

/-- The fields that several expressions read. -/
def itemInputs : List Expr → List Binding
  | [] => []
  | item :: rest => inputs item ++ itemInputs rest

/-- The fields that the values of entries read. -/
def entryInputs : List (String × Expr) → List Binding
  | [] => []
  | (_, value) :: rest => inputs value ++ entryInputs rest

end

end Expr

end ComponentGen.JavaScript
