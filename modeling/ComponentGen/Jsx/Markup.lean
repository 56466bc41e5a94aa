import ComponentGen.JavaScript.Expr
/-!
# JSX markup

Generated markup as a tree: text, inserted expressions, and elements with attributes. `text` is
the only place where such trees become text. An element without content is written with a closing
tag or as a single closed tag, depending on the form.
-/

namespace ComponentGen.Jsx

open JavaScript (Expr)

/-- An attribute of an element. -/
inductive Attribute where
  /-- A name alone, which stands for true. -/
  | flag (name : String)
  /-- A text in double quotes, written as it is. -/
  | plain (name text : String)
  /-- An inserted expression. -/
  | value (name : String) (expr : Expr)

/-- A piece of markup. -/
inductive Markup where
  /-- Text, written as it is. -/
  | text (s : String)
  /-- An inserted expression. -/
  | insert (expr : Expr)
  | element (tag : String) (attributes : List Attribute) (content : List Markup)

/-- The character has a meaning between tags, so it is not written as text. -/
def isMarkup (c : Char) : Bool :=
  c == '{' || c == '}' || c == '<' || c == '>'

/-- How an element without content is written. -/
inductive Form where
  /-- With a closing tag. -/
  | paired
  /-- As a single closed tag. -/
  | compact
deriving DecidableEq, Repr

/-- An expression between braces. -/
def braced (expr : Expr) : String :=
  "\x7b" ++ expr.text ++ "\x7d"

/-- The text of an attribute. -/
def Attribute.text : Attribute → String
  | flag name => name
  | plain name text => name ++ "=\"" ++ text ++ "\""
  | value name expr => name ++ "=" ++ braced expr

/-- A tag name with its attributes. -/
def tagText (tag : String) (attributes : List Attribute) : String :=
  tag ++ String.join (attributes.map fun a => " " ++ a.text)

/-- The attributes are written in order, each behind a blank. -/
theorem exists_tagText_eq (tag : String) (front : List Attribute) (a : Attribute)
    (back : List Attribute) :
    ∃ rest, tagText tag (front ++ a :: back) = tagText tag front ++ " " ++ a.text ++ rest := by
  refine ⟨String.join (back.map fun a => " " ++ a.text), ?_⟩
  simp [tagText, String.append_assoc]

namespace Markup

instance : Inhabited Markup := ⟨text ""⟩

mutual

/-- The text of a piece of markup. -/
def render (form : Form) : Markup → String
  | text s => s
  | insert expr => braced expr
  | element tag attributes [] =>
    match form with
    | .paired => "<" ++ tagText tag attributes ++ "></" ++ tag ++ ">"
    | .compact => "<" ++ tagText tag attributes ++ " />"
  | element tag attributes (first :: rest) =>
    "<" ++ tagText tag attributes ++ ">" ++ (render form first ++ renderAll form rest)
      ++ "</" ++ tag ++ ">"

/-- The text of several pieces of markup in a row. -/
def renderAll (form : Form) : List Markup → String
  | [] => ""
  | first :: rest => render form first ++ renderAll form rest

end

/-- Pieces in a row are written one after the other. -/
theorem renderAll_eq_join (form : Form) (pieces : List Markup) :
    renderAll form pieces = String.join (pieces.map (render form)) := by
  induction pieces with
  | nil => simp [renderAll]
  | cons piece rest ih => simp [renderAll, ih]

theorem renderAll_append (form : Form) (first second : List Markup) :
    renderAll form (first ++ second) = renderAll form first ++ renderAll form second := by
  simp [renderAll_eq_join]

/-- With a closing tag, an element is written in the same way with and without content. -/
theorem render_element (tag : String) (attributes : List Attribute) (content : List Markup) :
    (element tag attributes content).render .paired =
      "<" ++ tagText tag attributes ++ ">" ++ renderAll .paired content ++ "</" ++ tag ++ ">" := by
  cases content with
  | nil =>
      have split : "></" = ">" ++ "</" := rfl
      rw [render, renderAll, String.append_empty, split, ← String.append_assoc]
  | cons first rest => rw [render, renderAll]

/-- The attributes of an element are written behind the name in its opening tag. -/
theorem exists_render_element_eq (tag : String) (front : List Attribute) (a : Attribute)
    (back : List Attribute) (content : List Markup) :
    ∃ rest, (element tag (front ++ a :: back) content).render .paired =
      "<" ++ tagText tag front ++ " " ++ a.text ++ rest := by
  obtain ⟨others, opening⟩ := exists_tagText_eq tag front a back
  refine ⟨others ++ ">" ++ renderAll .paired content ++ "</" ++ tag ++ ">", ?_⟩
  rw [render_element, opening]
  simp only [String.append_assoc]

end Markup

end ComponentGen.Jsx
