/-!
# Text templates

A template is a text with holes, each of which holds a variable. Filling it in replaces every hole
by the value of its variable in one pass and without escaping; what is put in is not looked at
again.
-/

namespace ComponentGen

/-- A part of a template. -/
inductive Template.Part (ν : Type) where
  | text (s : String)
  | hole (name : ν)
deriving DecidableEq, Repr

/-- A template: texts and holes in a row. -/
abbrev Template (ν : Type) := List (Template.Part ν)

namespace Template

variable {ν : Type}

/-- The text of a part, when every variable has a value. -/
def Part.expand (value : ν → String) : Part ν → String
  | text s => s
  | hole v => value v

/-- The text of a part, if its variable has a value. -/
def Part.render? (value? : ν → Option String) : Part ν → Option String
  | text s => some s
  | hole v => value? v

/-- Replace every variable by its value. -/
def expand (template : Template ν) (value : ν → String) : String :=
  String.join (template.map (Part.expand value))

/-- Replace every variable by its value; none if a variable has no value. -/
def render? (template : Template ν) (value? : ν → Option String) : Option String :=
  (template.mapM (Part.render? value?)).map String.join

/-- Put text in front of a template. -/
def consText (cs : List Char) : Template ν → Template ν
  | .text s :: rest => .text (String.ofList cs ++ s) :: rest
  | parts => .text (String.ofList cs) :: parts

end Template

end ComponentGen
