import ComponentGen.Template.Basic
import ComponentGen.Template.Expression
/-!
# Template libraries

Templates written as texts, kept by name. A hole is an expression in double braces, or in triple
ones, which mean the same here. A backslash in front of double braces makes them plain text; of
several backslashes in front of double braces the first is dropped. A text in which double braces
enclose anything else is no template, and filling in fails when an expression has no value.
-/

namespace ComponentGen

namespace Template

/-- Braces at the front close a hole; what follows them. -/
def afterBraces? (cs : List Char) : Option (List Char) :=
  ['}', '}'].isPrefixOf? (skipBlanks cs)

/-- What stands behind double braces opens the other branch of a block: the word for it, alone or
with a call right behind it. -/
def opensBranch (cs : List Char) : Bool :=
  ("else".toList.isPrefixOf? cs).any fun rest =>
    (afterBraces? rest).isSome ||
      ((readCall? (skipBlanks rest)).bind fun (_, rest) => afterBraces? rest).isSome

/-- The expression behind double braces and what follows the braces that close them. Outside of a
block there is no other branch to open; inside of a third brace nothing is taken for one. -/
def readHole? (cs : List Char) : Option (Expression × List Char) :=
  match skipBlanks cs with
  | '{' :: cs => do
    let (expression, rest) ← readExpression? (skipBlanks cs)
    match skipBlanks rest with
    | '}' :: rest => (afterBraces? rest).map fun rest => (expression, rest)
    | _ => none
  | cs => do
    let (expression, rest) ← if opensBranch cs then none else readExpression? cs
    (afterBraces? rest).map fun rest => (expression, rest)

/-- The backslashes at the front, if double braces follow them, and what follows the
backslashes. -/
def slashesBeforeBraces? (cs : List Char) : Option (List Char × List Char) :=
  match cs.dropWhile (· == '\\') with
  | '{' :: '{' :: rest => some (cs.takeWhile (· == '\\'), '{' :: '{' :: rest)
  | _ => none

/-- The text that a backslash at the front of a text stands for together with what it acts on,
and what follows. A single backslash turns up to two double braces that follow into text; the first
of several backslashes in front of double braces is dropped; any other one stands for itself. -/
def unescape : List Char → List Char × List Char
  | '{' :: '{' :: '{' :: '{' :: rest => (['{', '{', '{', '{'], rest)
  | '{' :: '{' :: rest => (['{', '{'], rest)
  | cs => (slashesBeforeBraces? cs).getD (['\\'], cs)

/-- The parts of a text of at most `fuel` characters. -/
def readParts? : (fuel : Nat) → List Char → Option (Template Expression)
  | _, [] => some []
  | 0, _ => none
  | fuel + 1, '{' :: '{' :: rest => do
    let (expression, rest) ← readHole? rest
    return .hole expression :: (← readParts? fuel rest)
  | fuel + 1, '\\' :: rest =>
    let (text, rest) := unescape rest
    (readParts? fuel rest).map (consText text)
  | fuel + 1, c :: rest => (readParts? fuel rest).map (consText [c])

/-- The template that a text describes; double braces must enclose an expression. -/
def parse? (text : String) : Option (Template Expression) :=
  readParts? text.length text.toList

end Template

/-- Why a template could not be used. -/
inductive TemplateError where
  /-- The text is no template. -/
  | invalid
  /-- No template has the name, or an expression has no value. -/
  | unbound
deriving DecidableEq, Repr

/-- Templates by name. -/
structure TemplateLibrary where
  templates : OrderedMap (Template Template.Expression) := .empty

namespace TemplateLibrary

/-- Add a template; an earlier one of the same name is replaced. -/
def register (library : TemplateLibrary) (name text : String) :
    Except TemplateError TemplateLibrary :=
  match Template.parse? text with
  | some template => .ok ⟨library.templates.insert name template⟩
  | none => .error .invalid

/-- Fill in the template of a name. -/
def render (library : TemplateLibrary) (name : String) (data : Json) :
    Except TemplateError String :=
  match (library.templates.get? name).bind (·.render? (Template.Expression.text? data)) with
  | some text => .ok text
  | none => .error .unbound

end TemplateLibrary

end ComponentGen
