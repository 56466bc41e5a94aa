import ComponentGen.Run
/-!
# The command line

The commands of the program: generating a project, checking definitions, and rendering a
composition. Arguments are read from left to right into a command; a command is executed on a file
tree and gives an exit code, a text, and the tree after it.
-/

namespace ComponentGen.CommandLine

/-- The name and version of the program. -/
def versionText : String := "kiln 0.1.0"

/-! ## Reading arguments -/

/-- What an option of the command line is followed by. -/
inductive OptionKind where
  /-- Nothing. -/
  | flag
  /-- A value that satisfies the test. -/
  | value (accepts : String → Bool)

/-- An option of the command line. -/
structure OptionSpec where
  long : String
  short : Option Char
  kind : OptionKind

/-- What follows the name of a command: its options, and how many plain arguments. -/
structure CommandSpec where
  options : List OptionSpec
  arguments : Nat

/-- What has been read so far: options with their values, and plain arguments. -/
structure Parsed where
  options : List (String × String) := []
  arguments : List String := []

/-- Why reading arguments stops early. -/
inductive Stop where
  /-- The help text is asked for. -/
  | help
  /-- The version is asked for. -/
  | version
  /-- The arguments do not fit. -/
  | misuse
deriving DecidableEq, Repr

namespace Parsed

/-- An option was given. -/
def has (p : Parsed) (long : String) : Bool :=
  (p.options.lookup long).isSome

/-- The value of an option. -/
def value? (p : Parsed) (long : String) : Option String :=
  p.options.lookup long

/-- Take up an option; it may be given only once, and its value must be acceptable. -/
def addOption (p : Parsed) (spec : OptionSpec) (value : String) : Except Stop Parsed :=
  let acceptable :=
    match spec.kind with
    | .flag => true
    | .value accepts => accepts value
  if p.has spec.long || !acceptable then .error .misuse
  else .ok { p with options := (spec.long, value) :: p.options }

/-- Take up a plain argument; it may not be empty, and there may not be too many. -/
def addArgument (p : Parsed) (limit : Nat) (argument : String) : Except Stop Parsed :=
  if argument = "" ∨ limit ≤ p.arguments.length then .error .misuse
  else .ok { p with arguments := p.arguments ++ [argument] }

end Parsed

/-- The argument starts an option; a single dash does not. -/
def looksLikeOption (argument : String) : Bool :=
  match argument.toList with
  | '-' :: _ :: _ => true
  | _ => false

/-- The text in front of the first equals sign, and the text behind it. -/
def splitEquals (cs : List Char) : String × Option String :=
  let name := String.ofList (cs.takeWhile (· != '='))
  match cs.dropWhile (· != '=') with
  | [] => (name, none)
  | _ :: value => (name, some (String.ofList value))

/-- The option that asks for help. -/
def helpSpec : OptionSpec := ⟨"help", some 'h', .flag⟩

/-- What an option does when it is met: take it up, or stop. -/
def meetOption (p : Parsed) (spec : OptionSpec) (value : String) : Except Stop Parsed :=
  if spec.long = "help" then .error .help
  else if spec.long = "version" then .error .version
  else p.addOption spec value

/-- Read a group of short options behind one dash. The last one may take a value: the rest of the
group, or else the next argument, which is why the arguments left over are returned. -/
def readShort (spec : CommandSpec) (p : Parsed) (rest : List String) :
    List Char → Except Stop (Parsed × List String)
  | [] => .ok (p, rest)
  | c :: group =>
    match spec.options.find? (fun o => o.short == some c) with
    | none => .error .misuse
    | some o =>
      match o.kind with
      | .flag => do readShort spec (← meetOption p o "") rest group
      | .value _ =>
        match group, rest with
        | '=' :: value, _ => do return (← meetOption p o (String.ofList value), rest)
        | _ :: _, _ => do return (← meetOption p o (String.ofList group), rest)
        | [], next :: more =>
          if looksLikeOption next then .error .misuse
          else do return (← meetOption p o next, more)
        | [], [] => .error .misuse

/-- Read a long option. Its value stands behind an equals sign or is the next argument. -/
def readLong (spec : CommandSpec) (p : Parsed) (rest : List String) (body : List Char) :
    Except Stop (Parsed × List String) :=
  let (name, attached) := splitEquals body
  match spec.options.find? (fun o => o.long == name) with
  | none => .error .misuse
  | some o =>
    match o.kind, attached, rest with
    | .flag, none, _ => do return (← meetOption p o "", rest)
    | .flag, some _, _ => .error .misuse
    | .value _, some value, _ => do return (← meetOption p o value, rest)
    | .value _, none, next :: more =>
      if looksLikeOption next then .error .misuse
      else do return (← meetOption p o next, more)
    | .value _, none, [] => .error .misuse

/-- Read arguments, at most `fuel` of them. After two dashes only plain arguments follow. -/
def readArguments (spec : CommandSpec) (p : Parsed) :
    (fuel : Nat) → List String → Except Stop Parsed
  | _, [] => .ok p
  | 0, _ => .ok p
  | fuel + 1, argument :: rest =>
    match argument.toList with
    | ['-', '-'] => rest.foldlM (fun p next => p.addArgument spec.arguments next) p
    | '-' :: '-' :: body => do
      let (p, rest) ← readLong spec p rest body
      readArguments spec p fuel rest
    | '-' :: c :: group => do
      let (p, rest) ← readShort spec p rest (c :: group)
      readArguments spec p fuel rest
    | _ => do
      readArguments spec (← p.addArgument spec.arguments argument) fuel rest

/-! ## Commands -/

/-- The inputs that all commands share. Each overrides what the options file says. -/
structure Inputs where
  config : Option String := none
  input : Option String := none
  types : Option String := none
  strict : Bool := false
deriving DecidableEq, Repr

/-- A command of the program. -/
inductive Command where
  /-- Generate a project and write it. -/
  | generate (inputs : Inputs) (output : Option String) (styleMode : Option StyleMode)
      (noStories keepGoing : Bool)
  /-- Resolve all definitions and report what is found. -/
  | check (inputs : Inputs)
  /-- Render a composition. -/
  | render (inputs : Inputs) (composition : String)
deriving DecidableEq, Repr

/-- An option with a path as its value. -/
def pathOption (long : String) (short : Char) : OptionSpec :=
  ⟨long, some short, .value (· != "")⟩

/-- The option for more log output, which every level takes. -/
def verboseSpec : OptionSpec := ⟨"verbose", some 'v', .flag⟩

/-- The options that all commands share. -/
def sharedOptions : List OptionSpec :=
  [helpSpec, verboseSpec, pathOption "config" 'c', pathOption "input" 'i',
    pathOption "types" 't', ⟨"strict", none, .flag⟩]

/-- The arguments of the generating command. -/
def generateSpec : CommandSpec :=
  { options := sharedOptions ++
      [pathOption "output" 'o',
        ⟨"style-mode", none, .value fun value => (StyleMode.ofText? value).isSome⟩,
        ⟨"no-stories", none, .flag⟩,
        ⟨"keep-going", none, .flag⟩]
    arguments := 0 }

/-- The arguments of the checking command. -/
def checkSpec : CommandSpec := ⟨sharedOptions, 0⟩

/-- The arguments of the rendering command. -/
def renderSpec : CommandSpec := ⟨sharedOptions, 1⟩

/-- The shared inputs of a command. -/
def Parsed.inputs (p : Parsed) : Inputs :=
  { config := p.value? "config"
    input := p.value? "input"
    types := p.value? "types"
    strict := p.has "strict" }

/-- The command of a name with its arguments. -/
def readCommand (name : String) (arguments : List String) : Except Stop Command :=
  let read (spec : CommandSpec) := readArguments spec {} arguments.length arguments
  if name = "generate" then do
    let p ← read generateSpec
    return .generate p.inputs (p.value? "output")
      ((p.value? "style-mode").bind StyleMode.ofText?) (p.has "no-stories") (p.has "keep-going")
  else if name = "check" then do
    let p ← read checkSpec
    return .check p.inputs
  else if name = "render" then do
    let p ← read renderSpec
    match p.arguments with
    | [composition] => return .render p.inputs composition
    | _ => .error .misuse
  else if name = "help" then
    match arguments with
    | [] => .error .help
    | [topic] =>
      if ["generate", "check", "render", "help"].contains topic then .error .help
      else .error .misuse
    | _ => .error .misuse
  else .error .misuse

/-- The options in front of the command. -/
def programSpec : CommandSpec :=
  ⟨[helpSpec, verboseSpec, ⟨"version", some 'V', .flag⟩], 0⟩

/-- Read the arguments of the program, at most `fuel` of them: options, then a command. -/
def readProgram (p : Parsed) : (fuel : Nat) → List String → Except Stop Command
  | _, [] => .error .misuse
  | 0, _ => .error .misuse
  | fuel + 1, argument :: rest =>
    match argument.toList with
    | ['-', '-'] => .error .misuse
    | '-' :: '-' :: body => do
      let (p, rest) ← readLong programSpec p rest body
      readProgram p fuel rest
    | '-' :: c :: group => do
      let (p, rest) ← readShort programSpec p rest (c :: group)
      readProgram p fuel rest
    | _ => readCommand argument rest

/-- Read the arguments of the program. -/
def parse (arguments : List String) : Except Stop Command :=
  readProgram {} arguments.length arguments

/-! ## Execution -/

/-- The outcome of a program: its exit code, what it prints, the error that it reports, and the
file tree after it. -/
structure Outcome where
  exitCode : Nat
  output : String
  error : Option String
  tree : FileTree
deriving DecidableEq, Repr

namespace Outcome

/-- The program ends well and prints lines. -/
def success (lines : List String) (tree : FileTree) : Outcome :=
  ⟨0, String.join (lines.map (· ++ "\n")), none, tree⟩

/-- The program fails, having printed nothing. -/
def failure (message : String) (tree : FileTree) : Outcome :=
  ⟨1, "", some message, tree⟩

end Outcome

/-- Why options could not be read from a file. -/
inductive OptionsFault where
  | unreadable (fault : Fault)
  | malformed
deriving DecidableEq, Repr

/-- Read options from a file. -/
def readOptions (tree : FileTree) (path : String) : Except OptionsFault Options :=
  match tree.readText path with
  | .error fault => .error (.unreadable fault)
  | .ok text =>
    match Options.read? text with
    | some options => .ok options
    | none => .error .malformed

/-- The options of a command, or the text of an error: those of the options file with the inputs
of the command in place. -/
def Inputs.options (inputs : Inputs) (tree : FileTree) : Except String Options := do
  let base ←
    match inputs.config with
    | none => pure {}
    | some path =>
      match readOptions tree path with
      | .ok options => pure options
      | .error _ => .error ("failed to load config " ++ path)
  return { base with
    inputDir := inputs.input.getD base.inputDir
    typesFile := inputs.types.getD base.typesFile
    strictPlaceholders := inputs.strict || base.strictPlaceholders }

/-- Generate a project and name its files. -/
def executeGenerate (options : Options) (tree : FileTree) : Outcome :=
  match run options tree with
  | (after, .error error) => .failure error.message after
  | (after, .ok project) =>
    .success
      (("Generated " ++ toString project.size ++ " files to " ++ options.outputDir) ::
        project.paths.map fun path => "  - " ++ path)
      after

/-- The lines of a report. -/
def reportLines (r : Report) : List String :=
  (r.name ++ " (" ++ (if r.declared then "declared" else "undeclared") ++ ", "
    ++ toString r.references ++ " references)") ::
  r.collisions.map fun c => "    '" ++ c.surface ++ "' " ++ c.mapsToBoth

/-- The lines of several reports, with their sum at the end. -/
def checkLines (reports : List Report) : List String :=
  reports.flatMap reportLines ++
  [toString reports.length ++ " components, "
    ++ toString (reports.flatMap (·.collisions)).length ++ " placeholder collisions"]

/-- Check all definitions. Under the strict policy a collision is an error, which is reported
after everything has been printed. -/
def executeCheck (options : Options) (tree : FileTree) : Outcome :=
  let reports : Except RunError (List Report) := do
    let g ← Generator.load options tree
    let definitions ← g.definitions tree
    (g.check definitions).mapError .collision
  match reports with
  | .error error => .failure error.message tree
  | .ok reports =>
    let printed := Outcome.success (checkLines reports) tree
    if options.strictPlaceholders && reports.any (fun r => !r.collisions.isEmpty) then
      { printed with exitCode := 1, error := some "placeholder collisions found" }
    else printed

/-- Render a composition with the components that are defined. -/
def executeRender (composition : String) (options : Options) (tree : FileTree) : Outcome :=
  match tree.readText composition with
  | .error _ => .failure ("failed to read " ++ composition) tree
  | .ok text =>
    match Record.readList? text with
    | none => .failure ("invalid composition " ++ composition) tree
    | some records =>
      let definitions : Except RunError (List Definition) := do
        let g ← Generator.load options tree
        g.definitions tree
      match definitions with
      | .error error => .failure error.message tree
      | .ok definitions =>
        .success [(Generator.dispatcher definitions).toJsx records] tree

namespace Command

/-- The inputs of a command. -/
def inputs : Command → Inputs
  | generate inputs .. => inputs
  | check inputs => inputs
  | render inputs _ => inputs

/-- The options that a command works with, or the text of an error. The generating command also
overrides where output goes and what it consists of. -/
def options (command : Command) (tree : FileTree) : Except String Options := do
  let base ← command.inputs.options tree
  match command with
  | generate _ output styleMode noStories keepGoing =>
    return { base with
      outputDir := output.getD base.outputDir
      styleMode := styleMode.getD base.styleMode
      stories := base.stories && !noStories
      keepGoing := base.keepGoing || keepGoing }
  | check _ | render _ _ => return base

/-- Execute a command. -/
def execute (command : Command) (tree : FileTree) : Outcome :=
  match command.options tree with
  | .error message => .failure message tree
  | .ok options =>
    match command with
    | generate .. => executeGenerate options tree
    | check _ => executeCheck options tree
    | render _ composition => executeRender composition options tree

end Command

/-- The help text. -/
def helpText : String :=
  "\n".intercalate [
    "Generate React components from declarative JSON trees",
    "",
    "Usage: kiln [OPTIONS] <COMMAND>",
    "",
    "Commands:",
    "  generate  Generate components, stylesheets, the renderer and stories",
    "  check     Resolve every component and report placeholder problems without writing",
    "  render    Pre-render a composition (a JSON list of component records) to JSX"]

/-- Run the program with the given arguments on a file tree. -/
def execute (arguments : List String) (tree : FileTree) : Outcome :=
  match parse arguments with
  | .ok command => command.execute tree
  | .error .help => .success [helpText] tree
  | .error .version => .success [versionText] tree
  | .error .misuse => ⟨2, "", none, tree⟩

end ComponentGen.CommandLine
