import WebComponents.Text.Blank
import WebComponents.Text.Case

/-!
# Names in their several spellings

A component is named by a dash-case tag (`my-button`), its class by the same words run together
with capitals (`MyButton`), an event handler by the event's name with a capital, and a variable for
a module by a small letter followed by capitalised words.  Word boundaries are dashes on one side
and ASCII capitals and digits on the other.
-/

namespace WebComponents.Naming

open Text

/-! ## Tags and classes -/

/-- Each dash-separated word with a capital, run together. -/
def pascalChars (s : List Char) : List Char :=
  (split (· == '-') s).flatMap capitalize

/-- Each dash-separated word with a capital, run together: `my-button` gives `MyButton`. -/
def pascalCase (s : String) : String :=
  String.ofList (pascalChars s.toList)

/-- The text with a capital first letter. -/
def titleCase (s : String) : String :=
  String.ofList (capitalize s.toList)

/-- The characters before which a new word begins. -/
def startsWord (c : Char) : Bool :=
  c.isUpper || c.isDigit

/-- The text with a space before each character that starts a word. -/
def spaceWords (s : List Char) : List Char :=
  s.flatMap fun c => if startsWord c then [' ', c] else [c]

/-- The words of a text, found at spaces, capitals and digits, joined by dashes in small letters. -/
def dashChars (s : List Char) : List Char :=
  let words := (split (· == ' ') (trim (spaceWords s))).filter fun word => !word.isEmpty
  lower (join '-' words)

/-- The words of a text, found at spaces, capitals and digits, joined by dashes in small letters:
`myButton` gives `my-button`. -/
def dashCase (s : String) : String :=
  String.ofList (dashChars s.toList)

/-! ## Variable names -/

/-- The characters that end the part of a module specifier from which a name is made. -/
def endsModuleName (c : Char) : Bool :=
  c == '?' || c == '#' || c == '&' || c == '='

/-- The characters that separate words in a module specifier, beside the dash. -/
def moduleNameSeparators : List Char :=
  ['|', ';', '$', '%', '@', '"', '<', '>', '(', ')', '+', ',', '.', '\x7b', '\x7d', '_', '!', '/',
    '\\']

/-- The text with its first character in small form. -/
def decapitalize : List Char → List Char
  | [] => []
  | c :: rest => lowerChar c ++ rest

/-- A name that would start with a digit gets an underscore in front. -/
def guardDigit : List Char → List Char
  | [] => []
  | c :: rest => if c.isDigit then '_' :: c :: rest else c :: rest

/-- A variable name for a module specifier. -/
def variableChars (specifier : List Char) : List Char :=
  let stem := specifier.takeWhile fun c => !endsModuleName c
  let dashed := (dashChars stem).map fun c => if moduleNameSeparators.contains c then '-' else c
  guardDigit (decapitalize (pascalChars (lower dashed)))

/-- A variable name for a module specifier: `./my-module.ts?raw` gives `myModuleTs`. -/
def variableName (specifier : String) : String :=
  String.ofList (variableChars specifier.toList)

end WebComponents.Naming
