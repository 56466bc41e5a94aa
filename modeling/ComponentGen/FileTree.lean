import ComponentGen.OrderedMap
import ComponentGen.Text.Split
/-!
# File trees

Files and folders as a value, together with the working folder of a program. Paths are texts as
they are given to a program; looking one up walks its segments, so that every fault of a path shows
up where it does in a real file system: a missing folder, a file in the place of a folder, or a
name that nothing can have.
Reading and writing never look at anything else, which makes a run of the program a function from
file trees to file trees.
-/

namespace ComponentGen

/-- What a file holds: text, or bytes that are no text. -/
inductive Content where
  | text (s : String)
  | binary (bytes : List UInt8)
deriving DecidableEq, Repr

/-- What stands at a place in the tree. -/
inductive Entry where
  | file (content : Content)
  | folder
deriving DecidableEq, Repr

/-- A place in the tree: the names of the folders that lead to it from the root, and its own name.
The root itself has none. -/
abbrev Place := List String

/-- Why a path could not be read or written. -/
inductive Fault where
  /-- There is nothing at the path. -/
  | notFound
  /-- The file holds no text. -/
  | notText
  /-- The path leads through a file, or there is a folder where a file is needed or a file where a
  folder is needed. -/
  | wrongKind
  /-- Nothing can stand at the path: it holds a zero character, or it or a name in it is too
  long. -/
  | unusable
deriving DecidableEq, Repr

/-- Files and folders, each at its place, and the place that relative paths start from. -/
structure FileTree where
  entries : List (Place × Entry)
  workingFolder : Place := []
deriving DecidableEq, Repr

namespace FileTree

/-- The tree that holds nothing but its root, which is the working folder. -/
def empty : FileTree := { entries := [] }

instance : Inhabited FileTree := ⟨empty⟩

/-- The tree that holds a working folder and the folders that lead to it. -/
def ofWorkingFolder (place : Place) : FileTree :=
  { entries := (List.range place.length).map fun n => (place.take (n + 1), .folder)
    workingFolder := place }

/-- What stands at a place; the root is always a folder. -/
def at? (tree : FileTree) (place : Place) : Option Entry :=
  if place = [] then some .folder else tree.entries.lookup place

/-- Put an entry at a place, instead of what stands there. -/
def put (tree : FileTree) (place : Place) (entry : Entry) : FileTree :=
  { tree with entries := Entries.put place entry tree.entries }

/-- What stands at a place after putting an entry at another one or the same. -/
theorem at?_put (tree : FileTree) (place other : Place) (entry : Entry) :
    (tree.put place entry).at? other =
      if other = [] then some .folder else if other = place then some entry else tree.at? other := by
  by_cases root : other = []
  · simp [at?, root]
  · simp [at?, put, root, Entries.lookup_put]

/-- Putting an entry leaves the working folder where it is. -/
@[simp] theorem workingFolder_put (tree : FileTree) (place : Place) (entry : Entry) :
    (tree.put place entry).workingFolder = tree.workingFolder := rfl

/-- The segments of a path, between slashes. -/
def segments (path : List Char) : List (List Char) :=
  Text.splitWhere (· == '/') path

/-- The greatest length of a name in bytes. -/
def nameLimit : Nat := 255

/-- The greatest length of a path in bytes. -/
def pathLimit : Nat := 4095

/-- The path is not too long and holds no zero character. -/
def isUsable (path : String) : Bool :=
  path.utf8ByteSize ≤ pathLimit && path.toList.all (· != '\x00')

/-- Walk one segment onward from a place. What stands at the place must be a folder; a segment
that is empty or a single dot stays there, and two dots lead back. -/
def walk (tree : FileTree) (place : Place) (segment : String) : Except Fault Place :=
  match tree.at? place with
  | none => .error .notFound
  | some (.file _) => .error .wrongKind
  | some .folder =>
    if segment = "" ∨ segment = "." then .ok place
    else if segment = ".." then .ok place.dropLast
    else if nameLimit < segment.utf8ByteSize then .error .unusable
    else .ok (place ++ [segment])

/-- The path starts with a slash, and so at the root. -/
def isAbsolute (path : String) : Bool :=
  path.toList.head? == some '/'

/-- The place that a path starts from: the root or the working folder. -/
def start (tree : FileTree) (path : String) : Place :=
  if isAbsolute path then [] else tree.workingFolder

/-- The place that a path leads to; there need not be anything at it. The empty path leads
nowhere. -/
def locate (tree : FileTree) (path : String) : Except Fault Place :=
  if path = "" then .error .notFound
  else if !isUsable path then .error .unusable
  else
    (segments path.toList).foldlM (fun place segment => tree.walk place (String.ofList segment))
      (tree.start path)

/-- The text of the file at a path. -/
def readText (tree : FileTree) (path : String) : Except Fault String := do
  let place ← tree.locate path
  match tree.at? place with
  | none => .error .notFound
  | some .folder => .error .wrongKind
  | some (.file (.binary _)) => .error .notText
  | some (.file (.text s)) => .ok s

/-- There is a file at a path. No file is seen at a path that cannot be used. -/
def isFile (tree : FileTree) (path : String) : Bool :=
  match tree.locate path with
  | .error _ => false
  | .ok place =>
    match tree.at? place with
    | some (.file _) => true
    | some .folder | none => false

/-- The name of an entry that stands right inside a folder. -/
def nameIn? (folder place : Place) : Option String :=
  match place.getLast? with
  | some name => if place.dropLast = folder then some name else none
  | none => none

/-- The names of the files right inside the folder at a path. -/
def fileNames (tree : FileTree) (path : String) : Except Fault (List String) := do
  let folder ← tree.locate path
  match tree.at? folder with
  | none => .error .notFound
  | some (.file _) => .error .wrongKind
  | some .folder =>
    .ok (tree.entries.filterMap fun (place, entry) =>
      match entry with
      | .file _ => nameIn? folder place
      | .folder => none)

/-- Make sure that there is a folder at a place. -/
def ensureFolder (tree : FileTree) (place : Place) : Except Fault FileTree :=
  match tree.at? place with
  | none => .ok (tree.put place .folder)
  | some .folder => .ok tree
  | some (.file _) => .error .wrongKind

/-- Walk one segment onward and make sure that there is a folder. -/
def enterFolder (state : FileTree × Place) (segment : String) :
    Except Fault (FileTree × Place) := do
  let (tree, place) := state
  let next ← tree.walk place segment
  let tree ← tree.ensureFolder next
  return (tree, next)

/-- Walk several segments onward from a place and make sure that there are folders. -/
def enterFolders (tree : FileTree) (place : Place) (segments : List String) :
    Except Fault FileTree := do
  let (tree, _) ← segments.foldlM enterFolder (tree, place)
  return tree

/-- The segments of a path that lead somewhere else: not the empty ones and the single dots. -/
def steps (path : String) : List String :=
  ((segments path.toList).map String.ofList).filter fun segment => segment != "" && segment != "."

/-- The path ends in a single dot, but for slashes behind it. -/
def endsInDot (path : String) : Bool :=
  (((segments path.toList).map String.ofList).filter (· != "")).getLast? == some "."

/-- There is a folder at a path. -/
def checkFolder (tree : FileTree) (path : String) : Except Fault Unit := do
  let place ← tree.locate path
  match tree.at? place with
  | none => .error .notFound
  | some (.file _) => .error .wrongKind
  | some .folder => .ok ()

/-- Make sure that there are folders all along a path. The empty path needs none. A single dot is
no name that a new folder can have: of a path that ends in one only the folders in front of its
last step are made, and the whole path must then lead to a folder. -/
def createFolders (tree : FileTree) (path : String) : Except Fault FileTree :=
  if path = "" then .ok tree
  else if !isUsable path then .error .unusable
  else if endsInDot path then do
    let tree ← tree.enterFolders (tree.start path) (steps path).dropLast
    tree.checkFolder path
    return tree
  else
    tree.enterFolders (tree.start path) (steps path)

/-- Write a text file at a path. Its folder must be there already. -/
def writeText (tree : FileTree) (path text : String) : Except Fault FileTree := do
  let place ← tree.locate path
  match tree.at? place with
  | some .folder => .error .wrongKind
  | _ => .ok (tree.put place (.file (.text text)))

end FileTree

/-- The path of something inside a folder. A path from the root stays as it is. -/
def joinPath (folder path : String) : String :=
  if FileTree.isAbsolute path ∨ folder = "" then path
  else if folder.toList.getLast? = some '/' then folder ++ path
  else folder ++ "/" ++ path

end ComponentGen
