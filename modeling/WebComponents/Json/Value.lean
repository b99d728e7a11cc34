/-!
# Writing JSON

The values that the library writes have no numbers.  A text escapes quotes, backslashes and control
characters, and leaves every other character as it is.  `compact` puts everything on one line;
`pretty` gives each item a line of its own, indented by two spaces per level.
-/

namespace WebComponents.Json

/-- A JSON value to be written, members in order. -/
inductive Value where
  | null
  | boolean (value : Bool)
  | string (text : String)
  | array (items : List Value)
  | object (members : List (String × Value))
  deriving Repr

/-- A hexadecimal digit in small letters. -/
def hexDigit (n : Nat) : Char :=
  if n < 10 then Char.ofNat ('0'.toNat + n) else Char.ofNat ('a'.toNat + (n - 10))

/-- A character as it is written inside a string. -/
def escapeChar (c : Char) : List Char :=
  if c = '"' then ['\\', '"']
  else if c = '\\' then ['\\', '\\']
  else if c = '\x08' then ['\\', 'b']
  else if c = '\x0C' then ['\\', 'f']
  else if c = '\n' then ['\\', 'n']
  else if c = '\r' then ['\\', 'r']
  else if c = '\t' then ['\\', 't']
  else if c < ' ' then ['\\', 'u', '0', '0', hexDigit (c.toNat / 16), hexDigit (c.toNat % 16)]
  else [c]

/-- A string as it is written. -/
def stringChars (text : String) : List Char :=
  '"' :: text.toList.flatMap escapeChar ++ ['"']

/-- A truth value as it is written. -/
def booleanChars (value : Bool) : List Char :=
  if value then ['t', 'r', 'u', 'e'] else ['f', 'a', 'l', 's', 'e']

/-! ## On one line -/

mutual

/-- The value without any blanks. -/
def Value.compactChars : Value → List Char
  | .null => ['n', 'u', 'l', 'l']
  | .boolean value => booleanChars value
  | .string text => stringChars text
  | .array items => '[' :: compactItems items ++ [']']
  | .object members => '\x7b' :: compactMembers members ++ ['\x7d']

/-- The items of an array with commas between them. -/
def compactItems : List Value → List Char
  | [] => []
  | [item] => item.compactChars
  | item :: items => item.compactChars ++ ',' :: compactItems items

/-- The members of an object with commas between them. -/
def compactMembers : List (String × Value) → List Char
  | [] => []
  | [(key, value)] => stringChars key ++ ':' :: value.compactChars
  | (key, value) :: members =>
    stringChars key ++ ':' :: value.compactChars ++ ',' :: compactMembers members

end

/-- The value on one line. -/
def Value.compact (value : Value) : String :=
  String.ofList value.compactChars

/-! ## On several lines -/

/-- A new line with the indentation of a level. -/
def lineChars (level : Nat) : List Char :=
  '\n' :: List.replicate (2 * level) ' '

mutual

/-- The value with a line for each item, at the given level. -/
def Value.prettyChars (level : Nat) : Value → List Char
  | .null => ['n', 'u', 'l', 'l']
  | .boolean value => booleanChars value
  | .string text => stringChars text
  | .array [] => ['[', ']']
  | .array items => '[' :: prettyItems (level + 1) items ++ lineChars level ++ [']']
  | .object [] => ['\x7b', '\x7d']
  | .object members =>
    '\x7b' :: prettyMembers (level + 1) members ++ lineChars level ++ ['\x7d']

/-- The items of an array, each on its line. -/
def prettyItems (level : Nat) : List Value → List Char
  | [] => []
  | [item] => lineChars level ++ item.prettyChars level
  | item :: items => lineChars level ++ item.prettyChars level ++ ',' :: prettyItems level items

/-- The members of an object, each on its line. -/
def prettyMembers (level : Nat) : List (String × Value) → List Char
  | [] => []
  | [(key, value)] =>
    lineChars level ++ stringChars key ++ ':' :: ' ' :: value.prettyChars level
  | (key, value) :: members =>
    lineChars level ++ stringChars key ++ ':' :: ' ' :: value.prettyChars level ++
      ',' :: prettyMembers level members

end

/-- The value with a line for each item. -/
def Value.pretty (value : Value) : String :=
  String.ofList (value.prettyChars 0)

end WebComponents.Json
