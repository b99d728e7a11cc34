import WebComponents.Toml.Word

/-!
# Reading TOML

A document is a sequence of lines: headers, pairs of a key and a value, comments and blank lines.
Arrays and inline tables may run over several lines and end with a comma; inside an inline table a
line may also end before or after an equals sign, but not inside a dotted key.  Brackets nest at
most eighty levels deep, and a dotted key has at most eighty parts.

The readers take a text and give what they read with the rest of the text, or nothing if the text is
not TOML.
-/

namespace WebComponents.Toml

open Text

/-- Reads from the start of a text. -/
abbrev Parser (α : Type) := List Char → Option (α × List Char)

/-! ## Blanks and comments -/

/-- Spaces and tabs. -/
def isBlank (c : Char) : Bool :=
  c == ' ' || c == '\t'

/-- The text without spaces and tabs at its start. -/
def skipBlanks (s : List Char) : List Char :=
  s.dropWhile isBlank

/-- The characters that may stand in a comment or a string on one line. -/
def isPlain (c : Char) : Bool :=
  c == '\t' || (' ' ≤ c && c != '\x7F')

/-- The rest of the text after a line break, if the text starts with one. -/
def newline? : List Char → Option (List Char)
  | '\n' :: rest => some rest
  | '\r' :: '\n' :: rest => some rest
  | _ => none

/-- The rest of the text after a comment, if it starts with one; the comment ends before a line
break. -/
def skipComment (s : List Char) : List Char :=
  match s with
  | '#' :: rest => rest.dropWhile isPlain
  | _ => s

/-- The rest of the text after the end of a line: blanks, a comment, and a line break unless the
text is over. -/
def endOfLine? (s : List Char) : Option (List Char) :=
  match skipComment (skipBlanks s) with
  | [] => some []
  | rest => newline? rest

/-- The text without blanks, comments and line breaks at its start; `fuel` bounds their number. -/
def skipLines : Nat → List Char → List Char
  | 0, s => s
  | fuel + 1, s =>
    let rest := skipComment (skipBlanks s)
    match newline? rest with
    | some rest => skipLines fuel rest
    | none => rest

/-- The text without anything at its start that only separates. -/
def skipVoid (s : List Char) : List Char :=
  skipLines s.length s

/-! ## Strings -/

/-- The character that a number stands for. -/
def scalar? (code : Nat) : Option Char :=
  if code < 0xD800 ∨ (0xDFFF < code ∧ code < 0x110000) then some (Char.ofNat code) else none

/-- The character that hexadecimal digits stand for. -/
def hexChar? (digits : List Char) : Option Char :=
  if digits.all isHexDigit then scalar? (numberIn 16 digits) else none

/-- The character that a one-letter escape stands for. -/
def escaped? : Char → Option Char
  | 'b' => some '\x08'
  | 't' => some '\t'
  | 'n' => some '\n'
  | 'f' => some '\x0C'
  | 'r' => some '\r'
  | 'e' => some '\x1B'
  | '"' => some '"'
  | '\\' => some '\\'
  | _ => none

/-- The character of an escape and the length of the escape; the text starts after the
backslash. -/
def escape? : List Char → Option (Char × Nat)
  | [] => none
  | 'x' :: rest => if rest.length < 2 then none else return (← hexChar? (rest.take 2), 3)
  | 'u' :: rest => if rest.length < 4 then none else return (← hexChar? (rest.take 4), 5)
  | 'U' :: rest => if rest.length < 8 then none else return (← hexChar? (rest.take 8), 9)
  | c :: _ => return (← escaped? c, 1)

/-- A string in double quotes on one line, after its opening quote; `covered` characters belong to
the last escape. -/
def basicString (covered : Nat) : List Char → Option (List Char × List Char)
  | [] => none
  | c :: rest =>
    match covered with
    | n + 1 => basicString n rest
    | 0 =>
      if c = '"' then some ([], rest)
      else if c = '\\' then do
        let (escaped, length) ← escape? rest
        let (text, after) ← basicString length rest
        return (escaped :: text, after)
      else if isPlain c then do
        let (text, after) ← basicString 0 rest
        return (c :: text, after)
      else none

/-- A string in single quotes on one line, after its opening quote. -/
def literalString (s : List Char) : Option (List Char × List Char) :=
  let text := s.takeWhile fun c => isPlain c && c != '\''
  match s.drop text.length with
  | '\'' :: rest => some (text, rest)
  | _ => none

/-- The end of a string over several lines, where the text starts with at least three quotes: up to
two of them still belong to the string. -/
def closing? (quote : Char) (s : List Char) : Option (List Char × List Char) :=
  let quotes := (s.takeWhile (· == quote)).length
  if quotes < 3 then none
  else
    let own := min (quotes - 3) 2
    some (List.replicate own quote, s.drop (own + 3))

/-- Whether only blanks stand before the next line break. -/
def blankToEnd (s : List Char) : Bool :=
  (newline? (skipBlanks s)).isSome

/-- A string over several lines, after its opening quotes and the line break there; in double quotes
(`escapes`) a backslash at the end of a line joins the next text to it, and all blanks and line
breaks before that are skipped (`skipping`). -/
def longString (quote : Char) (escapes skipping : Bool) (covered : Nat) :
    List Char → Option (List Char × List Char)
  | [] => none
  | c :: rest =>
    match covered with
    | n + 1 => longString quote escapes skipping n rest
    | 0 =>
      -- a carriage return by itself is no line break
      if c = '\r' ∧ rest.head? ≠ some '\n' then none
      else if skipping ∧ (isBlank c ∨ c = '\n' ∨ c = '\r') then
        longString quote escapes true 0 rest
      else
        match closing? quote (c :: rest) with
        | some ending => some ending
        | none =>
          if c = '\\' ∧ escapes then
            if blankToEnd rest then longString quote escapes true 0 rest
            else do
              let (escaped, length) ← escape? rest
              let (text, after) ← longString quote escapes false length rest
              return (escaped :: text, after)
          else if isPlain c ∨ c = '\n' ∨ c = '\r' then do
            let (text, after) ← longString quote escapes false 0 rest
            return (c :: text, after)
          else none

/-- A string of any kind. -/
def quotedString : Parser String
  | '"' :: '"' :: '"' :: rest => do
    let (text, after) ← longString '"' true false 0 ((newline? rest).getD rest)
    return (String.ofList text, after)
  | '\'' :: '\'' :: '\'' :: rest => do
    let (text, after) ← longString '\'' false false 0 ((newline? rest).getD rest)
    return (String.ofList text, after)
  | '"' :: rest => do
    let (text, after) ← basicString 0 rest
    return (String.ofList text, after)
  | '\'' :: rest => do
    let (text, after) ← literalString rest
    return (String.ofList text, after)
  | _ => none

/-! ## Keys -/

/-- The characters of a key without quotes. -/
def isBareKeyChar (c : Char) : Bool :=
  c.isAlphanum || c == '_' || c == '-'

/-- A key without dots; a quoted one stands on one line. -/
def simpleKey (s : List Char) : Option (String × List Char) :=
  match s with
  | '"' :: '"' :: '"' :: _ => none
  | '\'' :: '\'' :: '\'' :: _ => none
  | '"' :: _ => quotedString s
  | '\'' :: _ => quotedString s
  | _ =>
    match s.takeWhile isBareKeyChar with
    | [] => none
    | key => some (String.ofList key, s.dropWhile isBareKeyChar)

/-- Keys separated by dots, at most so many, and the text after the blanks behind them. -/
def dottedKey : Nat → List Char → Option (List String × List Char)
  | 0, _ => none
  | most + 1, s => do
    let (key, rest) ← simpleKey s
    match skipBlanks rest with
    | '.' :: rest =>
      let (keys, after) ← dottedKey most (skipBlanks rest)
      return (key :: keys, after)
    | rest => return ([key], rest)

/-- The largest number of keys between dots. -/
def maxKeys : Nat := 80

/-- Keys separated by dots, and the text after the blanks behind them. -/
def keyPath : Parser (List String) := fun s =>
  dottedKey maxKeys s

/-! ## Values -/

/-- The characters of a word. -/
def isWordChar (c : Char) : Bool :=
  !(isBlank c || ['\n', '\r', '#', ',', '[', ']', '\x7b', '\x7d', '=', '"', '\''].contains c)

/-- A value that is neither quoted nor bracketed; a date and a time may have a space between
them. -/
def wordValue : Parser Item := fun s => do
  let word := s.takeWhile isWordChar
  match s.drop word.length with
  | ' ' :: c :: rest =>
    if isDate word ∧ c.isDigit then
      let time := (c :: rest).takeWhile isWordChar
      return (← word? (word ++ ' ' :: time), (c :: rest).drop time.length)
    else
      return (← word? word, ' ' :: c :: rest)
  | rest => return (← word? word, rest)

/-- How deep brackets may nest. -/
def maxDepth : Nat := 80

mutual

/-- A value; `depth` is the number of brackets that may still be opened. -/
def parseValue : Nat → Nat → Parser Item
  | 0, _, _ => none
  | fuel + 1, depth, s =>
    match s with
    | '"' :: _ => (quotedString s).map fun (text, rest) => (.string text, rest)
    | '\'' :: _ => (quotedString s).map fun (text, rest) => (.string text, rest)
    | '[' :: rest =>
      if depth = 0 then none
      else (parseItems fuel (depth - 1) rest).map fun (items, rest) => (.array items, rest)
    | '\x7b' :: rest =>
      if depth = 0 then none
      else do
        let (pairs, rest) ← parsePairs fuel (depth - 1) rest
        return (.table .inline (← Entries.defineAll pairs []), rest)
    | _ => wordValue s

/-- The items of an array up to its closing bracket. -/
def parseItems : Nat → Nat → Parser (List Item)
  | 0, _, _ => none
  | fuel + 1, depth, s =>
    match skipVoid s with
    | ']' :: rest => some ([], rest)
    | s => do
      let (item, rest) ← parseValue fuel depth s
      match skipVoid rest with
      | ']' :: rest => return ([item], rest)
      | ',' :: rest =>
        let (items, after) ← parseItems fuel depth rest
        return (item :: items, after)
      | _ => none

/-- The pairs of an inline table up to its closing bracket. -/
def parsePairs : Nat → Nat → Parser (List (List String × Item))
  | 0, _, _ => none
  | fuel + 1, depth, s =>
    match skipVoid s with
    | '\x7d' :: rest => some ([], rest)
    | s => do
      let (path, rest) ← keyPath s
      match skipVoid rest with
      | '=' :: rest =>
        let (item, rest) ← parseValue fuel depth (skipVoid rest)
        match skipVoid rest with
        | '\x7d' :: rest => return ([(path, item)], rest)
        | ',' :: rest =>
          let (pairs, after) ← parsePairs fuel depth rest
          return ((path, item) :: pairs, after)
        | _ => none
      | _ => none

end

/-! ## Documents -/

/-- A header or a pair, without the end of its line. -/
def statement : Parser Statement := fun s =>
  match s with
  | '[' :: '[' :: rest => do
    match ← keyPath (skipBlanks rest) with
    | (path, ']' :: ']' :: rest) => return (.arrayHeader path, rest)
    | _ => none
  | '[' :: rest => do
    match ← keyPath (skipBlanks rest) with
    | (path, ']' :: rest) => return (.header path, rest)
    | _ => none
  | _ => do
    match ← keyPath s with
    | (path, '=' :: rest) =>
      let (item, rest) ← parseValue (s.length + 1) maxDepth (skipBlanks rest)
      return (.pair path item, rest)
    | _ => none

/-- The statements of a document; `fuel` bounds their number. -/
def statements : Nat → List Char → Option (List Statement)
  | 0, _ => none
  | fuel + 1, s =>
    match skipVoid s with
    | [] => some []
    | s => do
      let (first, rest) ← statement s
      return first :: (← statements fuel (← endOfLine? rest))

/-- The text without a byte order mark. -/
def dropMark : List Char → List Char
  | '\uFEFF' :: rest => rest
  | s => s

/-- The table that a text spells, if it is TOML. -/
def parse? (text : String) : Option Entries := do
  let s := dropMark text.toList
  ofStatements (← statements (s.length + 1) s)

end WebComponents.Toml
