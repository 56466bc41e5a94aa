import ComponentGen.Declaration.Extraction
import ComponentGen.FileTree
import ComponentGen.Generation
/-!
# Runs

A run of the generator on a file tree: the declared interfaces and the component definitions are
read, the project is generated, and its files are written. Everything is read and generated before
the first file is written, so a run that fails earlier leaves the tree as it was.
-/

namespace ComponentGen

/-- Why a run failed. -/
inductive RunError where
  /-- A file or folder could not be read. -/
  | unreadable (path : String) (fault : Fault)
  /-- A definition file does not describe a component tree. -/
  | invalidDefinition (path : String)
  /-- Two fields claim one placeholder, under the strict policy. -/
  | collision (error : CollisionError)
  /-- A file or folder could not be written. -/
  | unwritable (path : String) (fault : Fault)
deriving DecidableEq, Repr

/-- What is wrong with a path. -/
def Fault.message : Fault → String
  | notFound => "no such file or folder"
  | notText => "the file holds no text"
  | wrongKind => "there is a file or a folder in the way"
  | unusable => "nothing can stand at such a path"

/-- The text of an error. -/
def RunError.message : RunError → String
  | unreadable path fault => "Failed to read " ++ path ++ ": " ++ fault.message
  | invalidDefinition path =>
    "Invalid component definition " ++ path ++ ": not a component tree"
  | collision error => error.message
  | unwritable path fault => "Failed to write " ++ path ++ ": " ++ fault.message

/-! ## Reading -/

/-- Read the declared interfaces. A file that is not there declares nothing. -/
def readInterfaces (tree : FileTree) (path : String) : Except RunError InterfaceTable :=
  match tree.readText path with
  | .ok source => .ok (Declaration.extract source)
  | .error .notFound => .ok .empty
  | .error fault => .error (.unreadable path fault)

/-- The stem and the extension of a file name: what stands before and after its last dot. A name
without a dot, or with nothing before its last dot, has no extension. -/
def splitExtension (name : String) : String × Option String :=
  let reversed := name.toList.reverse
  match reversed.dropWhile (· != '.') with
  | '.' :: c :: stem =>
    (String.ofList (c :: stem).reverse,
      some (String.ofList (reversed.takeWhile (· != '.')).reverse))
  | _ => (name, none)

/-- The name is that of a component definition file. -/
def isDefinitionFile (name : String) : Bool :=
  (splitExtension name).2 == some "json"

/-- The definition files in the folder at a path, in ascending order of their names. A file that
its own path does not lead to, as that path is too long, is passed over. -/
def definitionFiles (tree : FileTree) (folder : String) : Except Fault (List String) := do
  let names ← tree.fileNames folder
  let seen := names.filter fun name => tree.isFile (joinPath folder name) && isDefinitionFile name
  return seen.mergeSort fun a b => decide (a ≤ b)

/-- Read the definition file of a name in a folder. -/
def readDefinition (tree : FileTree) (folder name : String) : Except RunError Definition :=
  let path := joinPath folder name
  match tree.readText path with
  | .error fault => .error (.unreadable path fault)
  | .ok text =>
    match Node.read? text with
    | none => .error (.invalidDefinition path)
    | some node => .ok ⟨Naming.componentName (splitExtension name).1, path, node⟩

/-- Add a definition; an earlier one of the same name is replaced in its place. -/
def addDefinition (d : Definition) : List Definition → List Definition
  | [] => [d]
  | first :: rest => if first.name = d.name then d :: rest else first :: addDefinition d rest

/-- Read the definition files of a folder one after the other on top of those read so far. A file
that cannot be read ends the run, or is skipped when `keepGoing` is set. -/
def readDefinitions (tree : FileTree) (folder : String) (keepGoing : Bool)
    (done : List Definition) : List String → Except RunError (List Definition)
  | [] => .ok done
  | name :: rest =>
    match readDefinition tree folder name with
    | .ok d => readDefinitions tree folder keepGoing (addDefinition d done) rest
    | .error error =>
      if keepGoing then readDefinitions tree folder keepGoing done rest else .error error

/-- Load all component definitions of a folder. -/
def loadDefinitions (tree : FileTree) (folder : String) (keepGoing : Bool) :
    Except RunError (List Definition) :=
  match definitionFiles tree folder with
  | .error fault => .error (.unreadable folder fault)
  | .ok names => readDefinitions tree folder keepGoing [] names

/-- The generator of a run, with the interfaces read from the file that the options name. -/
def Generator.load (options : Options) (tree : FileTree) : Except RunError Generator := do
  let interfaces ← readInterfaces tree options.typesFile
  return { options, interfaces }

/-- Load the definitions that the generator's options name. -/
def Generator.definitions (g : Generator) (tree : FileTree) :
    Except RunError (List Definition) :=
  loadDefinitions tree g.options.inputDir g.options.keepGoing

/-! ## Writing -/

/-- Write files into a folder one after the other. On a fault the files before it stay written. -/
def writeFiles (folder : String) (tree : FileTree) :
    List GeneratedFile → FileTree × Except RunError Unit
  | [] => (tree, .ok ())
  | file :: rest =>
    let path := joinPath folder file.path
    match tree.writeText path file.content with
    | .ok next => writeFiles folder next rest
    | .error fault => (tree, .error (.unwritable path fault))

/-- Write a project into a folder, which is created if it is not there. -/
def Project.write (p : Project) (folder : String) (tree : FileTree) :
    FileTree × Except RunError Unit :=
  match tree.createFolders folder with
  | .error fault => (tree, .error (.unwritable folder fault))
  | .ok next => writeFiles folder next p.files

/-! ## A whole run -/

/-- Read and generate everything that the options describe. Nothing is written. -/
def plan (options : Options) (tree : FileTree) : Except RunError Project := do
  let g ← Generator.load options tree
  let definitions ← g.definitions tree
  (g.generate definitions).mapError .collision

/-- A whole run: the tree after it, and the project that was generated. -/
def run (options : Options) (tree : FileTree) : FileTree × Except RunError Project :=
  match plan options tree with
  | .error error => (tree, .error error)
  | .ok project =>
    match project.write options.outputDir tree with
    | (after, .ok ()) => (after, .ok project)
    | (after, .error error) => (after, .error error)

end ComponentGen
