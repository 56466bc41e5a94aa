import ComponentGen.CommandLine
/-!
# The program

Reads the files that a command can look at into a file tree, executes the command on it, and
brings back what has changed. All decisions are taken by `CommandLine`; this module only moves
files and text in and out.
-/

namespace ComponentGen.Main

/-- The path of a place. -/
def absolutePath (place : Place) : String :=
  "/" ++ "/".intercalate place

/-- The content of a file that consists of the given bytes. -/
def contentOf (bytes : ByteArray) : Content :=
  match String.fromUTF8? bytes with
  | some s => .text s
  | none => .binary bytes.toList

/-- Add what stands at a place. -/
def lookAt (tree : FileTree) (place : Place) : IO FileTree := do
  if (tree.at? place).isSome then return tree
  let path := (← IO.currentDir) / absolutePath place
  if ← path.isDir then return tree.put place .folder
  if ← path.pathExists then return tree.put place (.file (contentOf (← IO.FS.readBinFile path)))
  return tree

/-- Add what stands along a path, as far as the path leads. -/
def lookAlong (tree : FileTree) (path : String) : IO FileTree := do
  let mut tree := tree
  let mut place := tree.start path
  for segment in FileTree.segments path.toList do
    match tree.walk place (String.ofList segment) with
    | .error _ => return tree
    | .ok next =>
      tree ← lookAt tree next
      place := next
  return tree

/-- Add what stands along a path and right inside the folder that it leads to. -/
def lookInto (tree : FileTree) (path : String) : IO FileTree := do
  let mut tree ← lookAlong tree path
  if let .ok folder := tree.locate path then
    if tree.at? folder = some .folder then
      for entry in ← ((← IO.currentDir) / absolutePath folder).readDir do
        tree ← lookAt tree (folder ++ [entry.fileName])
  return tree

/-- A tree that holds everything a command can look at. -/
def treeFor (command : CommandLine.Command) : IO FileTree := do
  let workingFolder := ((← IO.currentDir).toString.splitOn "/").filter (· != "")
  let mut tree := FileTree.ofWorkingFolder workingFolder
  if let some config := command.inputs.config then
    tree ← lookAlong tree config
  if let .render _ composition := command then
    tree ← lookAlong tree composition
  match command.options tree with
  | .error _ => return tree
  | .ok options =>
    tree ← lookAlong tree options.typesFile
    tree ← lookInto tree options.inputDir
    lookInto tree options.outputDir

/-- Bring back the files and folders that are new or changed. -/
def store (before after : FileTree) : IO Unit := do
  for (place, entry) in after.entries do
    if before.at? place ≠ some entry then
      let path := absolutePath place
      match entry with
      | .folder => IO.FS.createDirAll path
      | .file (.text s) => IO.FS.writeFile path s
      | .file (.binary bytes) => IO.FS.writeBinFile path (ByteArray.mk bytes.toArray)

end ComponentGen.Main

open ComponentGen in
/-- Run the program. Errors go to the standard error stream; arguments that do not fit give the
exit code 2. -/
def main (arguments : List String) : IO UInt32 := do
  let before ←
    match CommandLine.parse arguments with
    | .ok command => Main.treeFor command
    | .error _ => pure .empty
  let outcome := CommandLine.execute arguments before
  Main.store before outcome.tree
  IO.print outcome.output
  if let some message := outcome.error then
    IO.eprintln ("Error: " ++ message)
  if outcome.exitCode = 2 then
    IO.eprintln CommandLine.helpText
  return UInt32.ofNat outcome.exitCode
