import ComponentGen.Text.LowerCase
/-!
# Naming conventions

Placeholders are spelled in camel case (`navItem`), in kebab case (`nav-item`), or with a
hyphenated number (`item-1` for `item1`). This module converts between the spellings and derives
component names from the stems of definition files. Hyphens are joined and capitals are split by
ASCII rules; lower-casing a whole name is lower-casing of text.
-/

namespace ComponentGen.Naming

/-- Drop each hyphen whose next character satisfies `joins`, and change that character. A joined
character is used up: it does not join what follows it. -/
def joinHyphens (joins : Char → Bool) (change : Char → Char) : List Char → List Char
  | [] => []
  | '-' :: c :: rest =>
    if joins c then change c :: joinHyphens joins change rest
    else '-' :: joinHyphens joins change (c :: rest)
  | c :: rest => c :: joinHyphens joins change rest

/-- Kebab case to camel case: a hyphen in front of a small ASCII letter capitalises it; after
that, a hyphen in front of a digit is dropped. -/
def kebabToCamel (s : String) : String :=
  String.ofList (joinHyphens Char.isDigit id (joinHyphens Char.isLower Char.toUpper s.toList))

/-- A hyphen in front of every ASCII capital. -/
def splitCapitals (cs : List Char) : List Char :=
  cs.flatMap fun c => if c.isUpper then ['-', c] else [c]

/-- Camel case to kebab case: a hyphen in front of every ASCII capital, then all in lower case. -/
def camelToKebab (s : String) : String :=
  Text.lowerCase (String.ofList (splitCapitals s.toList))

/-- The letters and the digits of a name that is one run of ASCII letters followed by one run of
ASCII digits, both not empty. -/
def splitNumbered? (s : String) : Option (String × String) :=
  let letters := s.toList.takeWhile Char.isAlpha
  let digits := s.toList.dropWhile Char.isAlpha
  if !letters.isEmpty && !digits.isEmpty && digits.all Char.isDigit then
    some (String.ofList letters, String.ofList digits)
  else
    none

/-- The hyphenated spelling of a numbered name: `item1` gives `item-1`. -/
def numberedToKebab? (s : String) : Option String :=
  (splitNumbered? s).map fun parts => parts.1 ++ "-" ++ parts.2

/-- A separator of the words of a file stem. -/
def isSeparator (c : Char) : Bool :=
  c == '-' || c == '_'

/-- Drop the separators and capitalise the characters that come first or after a separator;
`atStart` tells whether the next character is such a one. -/
def capitaliseWords (atStart : Bool) : List Char → List Char
  | [] => []
  | c :: rest =>
    if isSeparator c then capitaliseWords true rest
    else (if atStart then c.toUpper else c) :: capitaliseWords false rest

/-- The component name of a definition file, from the stem of its file name: `hero-section` gives
`HeroSection`. Only ASCII letters are capitalised. -/
def componentName (stem : String) : String :=
  String.ofList (capitaliseWords true stem.toList)

end ComponentGen.Naming
