/-!
# Imports

What a generated module imports, apart from how the line is written: a name of a library module, a
name of a generated module, or a stylesheet, which binds no name. Names are imported in ascending
order and each once, so the imports depend on the set of names only.
-/

namespace ComponentGen.Generated

/-- An import of a generated module. -/
inductive Import where
  /-- The default export of a module under a name. -/
  | whole (name path : String)
  /-- One export of a module. -/
  | named (name path : String)
  /-- A stylesheet. -/
  | stylesheet (path : String)
deriving DecidableEq, Repr

namespace Import

/-- The line of an import. -/
def line : Import → String
  | whole name path => "import " ++ name ++ " from '" ++ path ++ "';"
  | named name path => "import \x7b " ++ name ++ " \x7d from '" ++ path ++ "';"
  | stylesheet path => "import '" ++ path ++ "';"

/-- The name that an import binds. -/
def boundName? : Import → Option String
  | whole name _ => some name
  | named name _ => some name
  | stylesheet _ => none

/-- The path that an import names. -/
def path : Import → String
  | whole _ path => path
  | named _ path => path
  | stylesheet path => path

/-- An export of a module beside the importing one that has the name of the export. -/
def sibling (name : String) : Import :=
  named name ("./" ++ name)

/-- An export of a module in a folder that has the name of the export. -/
def inFolder (folder name : String) : Import :=
  named name (folder ++ "/" ++ name)

end Import

/-- The lines of several imports. -/
def importLines (imports : List Import) : List String :=
  imports.map Import.line

/-- The names that several imports bind, in order. -/
def boundNames (imports : List Import) : List String :=
  imports.filterMap Import.boundName?

/-- Imports one after the other bind their names one after the other. -/
@[simp] theorem boundNames_append (first second : List Import) :
    boundNames (first ++ second) = boundNames first ++ boundNames second :=
  List.filterMap_append

/-- Names in ascending order, each once. -/
def sortedDistinct (names : List String) : List String :=
  (names.mergeSort fun a b => decide (a ≤ b)).eraseDups

/-- Sorting loses no name and adds none. -/
@[simp] theorem mem_sortedDistinct {names : List String} {name : String} :
    name ∈ sortedDistinct names ↔ name ∈ names := by
  simp [sortedDistinct]

end ComponentGen.Generated
