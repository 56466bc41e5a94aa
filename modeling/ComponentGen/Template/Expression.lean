import ComponentGen.Json.Text
import ComponentGen.Template.Command
/-!
# Expressions of templates

What a hole of a template may hold: a path into the data, or a call of a command with arguments. An
argument is a path or a literal value. A path is made of steps with dots or slashes between them; a
step named `this` stays where it is. Reading takes an expression from the front of a text and
gives back what follows it.
-/

namespace ComponentGen.Template

/-- The names that lead to a part of the data, one step after the other. -/
abbrev Path := List String

/-- An argument of a command. -/
inductive Argument where
  | literal (value : Json)
  | path (steps : Path)
deriving DecidableEq

/-- What stands in a hole of a template. -/
inductive Expression where
  | path (steps : Path)
  | call (command : String) (arguments : List Argument)
deriving DecidableEq

/-! ## Meaning -/

/-- The part of the data that a path leads to. -/
def Path.find? (path : Path) (data : Json) : Option Json :=
  (path.filter (· != "this")).foldlM part? data

/-- The value of an argument, if it leads somewhere. -/
def Argument.value? (data : Json) : Argument → Option Json
  | literal value => some value
  | path steps => steps.find? data

/-- The value of a command called by its name. -/
def callValue? (command : String) (arguments : List (Option Json)) : Option Json :=
  (Command.ofName? command).bind (·.run? arguments)

/-- The value of an expression. The name of a command stands for a call of the command without
arguments, not for a part of the data. -/
def Expression.value? (data : Json) : Expression → Option Json
  | path [name] =>
    if (Command.ofName? name).isSome then callValue? name [] else Path.find? [name] data
  | path steps => steps.find? data
  | call command arguments => callValue? command (arguments.map (·.value? data))

/-- What an expression puts into a text. -/
def Expression.text? (data : Json) (e : Expression) : Option String :=
  (e.value? data).map valueText

/-! ## Reading -/

/-- Drop the blanks at the front. -/
def skipBlanks (cs : List Char) : List Char :=
  cs.dropWhile Char.isWhitespace

/-- A character of a name. -/
def isNameChar (c : Char) : Bool :=
  c.isAlphanum || c == '_' || c == '-' || c == '$' || 128 ≤ c.toNat

/-- A character between the steps of a path. -/
def isStepMark (c : Char) : Bool :=
  c == '.' || c == '/'

/-- No name goes on at the front. -/
def atWordEnd (cs : List Char) : Bool :=
  !cs.head?.any isNameChar

/-- The name at the front. -/
def readName? (cs : List Char) : Option (String × List Char) :=
  match cs.takeWhile isNameChar with
  | [] => none
  | name => some (String.ofList name, cs.dropWhile isNameChar)

/-- The further steps of a path at the front, at most `fuel` of them. -/
def readSteps : (fuel : Nat) → List Char → Path × List Char
  | 0, cs => ([], cs)
  | _, [] => ([], [])
  | fuel + 1, c :: cs =>
    if !isStepMark c then ([], c :: cs)
    else
      match readName? cs with
      | none => ([], c :: cs)
      | some (step, rest) =>
        let (more, rest) := readSteps fuel rest
        (step :: more, rest)

/-- The path at the front. -/
def readPath? (cs : List Char) : Option (Path × List Char) :=
  (readName? cs).map fun (step, rest) =>
    let (more, rest) := readSteps rest.length rest
    (step :: more, rest)

/-- Drop a minus sign at the front. -/
def skipSign : List Char → List Char
  | '-' :: cs => cs
  | cs => cs

/-- Drop an exponent at the front, which is written with a capital letter and without a plus
sign. -/
def skipExponent (cs : List Char) : List Char :=
  match cs with
  | 'E' :: rest =>
    let digits := skipSign rest
    if digits.head?.any Char.isDigit then digits.dropWhile Char.isDigit else cs
  | _ => cs

/-- What follows the number at the front. -/
def numberEnd? (cs : List Char) : Option (List Char) :=
  let digits := skipSign cs
  if !digits.head?.any Char.isDigit then none
  else
    let rest := digits.dropWhile Char.isDigit
    let rest := match rest with
      | '.' :: places => places.dropWhile Char.isDigit
      | rest => rest
    let rest := skipExponent rest
    if atWordEnd rest then some rest else none

/-- What follows the word for a value at the front. -/
def wordEnd? (cs : List Char) : Option (List Char) :=
  ["null", "true", "false"].findSome? fun word =>
    (word.toList.isPrefixOf? cs).filter atWordEnd

/-- What follows the member of an object at the front, given how its value ends. -/
def memberEnd? (valueEnd? : List Char → Option (List Char)) : List Char → Option (List Char)
  | '"' :: cs => do
    let (_, rest) ← Json.Lexeme.scanString cs
    match skipBlanks rest with
    | ':' :: rest => valueEnd? (skipBlanks rest)
    | _ => none
  | _ => none

/-- What follows further entries of a list at the front, each behind a comma, at most `fuel` of
them. -/
def moreEntriesEnd (entryEnd? : List Char → Option (List Char)) :
    (fuel : Nat) → List Char → List Char
  | fuel + 1, ',' :: cs =>
    match entryEnd? (skipBlanks cs) with
    | some rest => moreEntriesEnd entryEnd? fuel (skipBlanks rest)
    | none => ',' :: cs
  | _, cs => cs

/-- What follows the entries of a list at the front and the character that closes it. -/
def listEnd? (entryEnd? : List Char → Option (List Char)) (close : Char) (cs : List Char) :
    Option (List Char) :=
  let start := skipBlanks cs
  let rest := skipBlanks ((entryEnd? start).getD start)
  match moreEntriesEnd entryEnd? rest.length rest with
  | c :: rest => if c = close then some rest else none
  | [] => none

/-- What follows the literal at the front, in which at most `fuel` lists are open at once. -/
def literalEnd? : (fuel : Nat) → List Char → Option (List Char)
  | 0, _ => none
  | fuel + 1, cs =>
    match cs with
    | '"' :: rest => (Json.Lexeme.scanString rest).map Prod.snd
    | '[' :: rest => listEnd? (literalEnd? fuel) ']' rest
    | '{' :: rest => listEnd? (memberEnd? (literalEnd? fuel)) '}' rest
    | cs => (numberEnd? cs).or (wordEnd? cs)

/-- The literal at the front; its text must be that of a JSON value. -/
def readLiteral? (cs : List Char) : Option (Json × List Char) := do
  let rest ← literalEnd? (cs.length + 1) cs
  let value ← Json.readValue? (String.ofList (cs.take (cs.length - rest.length)))
  return (value.canonical, rest)

/-- A word at the front that the language of templates keeps to itself, and no other word behind
it. -/
def startsReserved (cs : List Char) : Bool :=
  ["as", "else"].any fun word => (word.toList.isPrefixOf? cs).any fun rest =>
    atWordEnd (skipBlanks rest)

/-- The argument at the front: a literal if there is one, a path otherwise. -/
def readArgument? (cs : List Char) : Option (Argument × List Char) :=
  if startsReserved cs then none
  else if (literalEnd? (cs.length + 1) cs).isSome then
    (readLiteral? cs).map fun (value, rest) => (.literal value, rest)
  else (readPath? cs).map fun (path, rest) => (.path path, rest)

/-- The arguments at the front, at most `fuel` of them. -/
def readArguments : (fuel : Nat) → List Char → List Argument × List Char
  | 0, cs => ([], cs)
  | fuel + 1, cs =>
    match readArgument? (skipBlanks cs) with
    | none => ([], cs)
    | some (argument, rest) =>
      let (more, rest) := readArguments fuel rest
      (argument :: more, rest)

/-- The call at the front: a name and the arguments behind it, if any. -/
def readCall? (cs : List Char) : Option ((String × List Argument) × List Char) :=
  (readName? cs).map fun (command, rest) =>
    let (arguments, rest) := readArguments rest.length rest
    ((command, arguments), rest)

/-- The expression at the front: a call if there are arguments, a path otherwise. -/
def readExpression? (cs : List Char) : Option (Expression × List Char) :=
  match readCall? cs with
  | some ((command, argument :: more), rest) => some (.call command (argument :: more), rest)
  | _ => (readPath? cs).map fun (path, rest) => (.path path, rest)

end ComponentGen.Template
