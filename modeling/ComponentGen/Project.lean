/-!
# Generated projects

The files of one generation run in the order in which they are written.
-/

namespace ComponentGen

/-- A generated file; its path is relative to the output folder. -/
structure GeneratedFile where
  path : String
  content : String
deriving DecidableEq, Repr

/-- Every file of one generation run, in the order of writing. -/
structure Project where
  files : List GeneratedFile := []
deriving DecidableEq, Repr

namespace Project

/-- The project without files. -/
def empty : Project := {}

instance : Inhabited Project := ⟨empty⟩

/-- Add a file at the end. -/
def push (p : Project) (path content : String) : Project :=
  ⟨p.files ++ [⟨path, content⟩]⟩

/-- The content of the first file with a path. -/
def get? (p : Project) (path : String) : Option String :=
  (p.files.find? (·.path == path)).map (·.content)

/-- The paths of the files in order. -/
def paths (p : Project) : List String :=
  p.files.map (·.path)

/-- How many files there are. -/
def size (p : Project) : Nat :=
  p.files.length

/-- Adding a file adds its path at the end. -/
@[simp] theorem paths_push (p : Project) (path content : String) :
    (p.push path content).paths = p.paths ++ [path] := by
  simp [push, paths]

/-- Adding a file leaves the content of a path that is there. -/
theorem get?_push (p : Project) (path content other : String) :
    (p.push path content).get? other =
      (p.get? other).or (if path = other then some content else none) := by
  unfold get? push
  rw [List.find?_append]
  cases p.files.find? (·.path == other) with
  | some file => simp
  | none => by_cases same : path = other <;> simp [same]

end Project

end ComponentGen
