import WebComponents.Path.Lexical
import WebComponents.Text.Blank

/-!
# Imports of the framework in declaration files

Published declarations must not depend on the framework package, so its typings are copied beside
them and every `from '@kiln/core'` is made to name the copy by a relative path.

A text is first taken apart (`pieces`): an import of the framework becomes one piece with its gap,
its quotes and its optional `/internal`, and every other character a piece of its own.  The pieces
in order spell the text again, and redirecting changes the specifier of the imports alone.

A specifier is text, and a path need not be.  `strays` tells which characters of the paths stand for
bytes; where it is left out, the paths are texts.
-/

namespace WebComponents.Typings

open Text

/-- The package that components import from. -/
def frameworkPackage : String := "@kiln/core"

/-- The name of the framework's typings, without its extension. -/
def typingsName : String := "kiln-public-runtime"

/-- The place of the framework's typings in a directory of declarations. -/
def typingsPath (typesDir : Path) : Path :=
  typesDir.join ⟨typingsName ++ ".d.ts"⟩

/-! ## Imports in a text -/

/-- A part of a declaration file. -/
inductive Piece where
  | other (c : Char)
  /-- The word `from`, blanks, and the framework package in quotes. -/
  | framework (gap : List Char) (opening : Char) (internal : Bool) (closing : Char)
  deriving DecidableEq, Repr

/-- The word before a specifier. -/
def fromChars : List Char := ['f', 'r', 'o', 'm']

/-- The part of a specifier that names the internals of the framework. -/
def internalChars : List Char := "/internal".toList

/-- The specifier of an import of the framework. -/
def specifierChars (internal : Bool) : List Char :=
  frameworkPackage.toList ++ if internal then internalChars else []

/-- The characters of a piece, with `specifier` for the specifier of an import. -/
def Piece.charsWith (specifier : Bool → List Char) : Piece → List Char
  | .other c => [c]
  | .framework gap opening internal closing =>
    fromChars ++ gap ++ opening :: specifier internal ++ [closing]

/-- The characters of a piece. -/
def Piece.chars (piece : Piece) : List Char :=
  piece.charsWith specifierChars

/-- The text after `start`, if the text begins with it. -/
def after? (start : List Char) (s : List Char) : Option (List Char) :=
  if start.isPrefixOf s then some (s.drop start.length) else none

/-- The quotes that may stand around a specifier. -/
def isQuote (c : Char) : Bool :=
  c == '\'' || c == '"'

/-- The import of the framework that the text begins with. -/
def framework? (s : List Char) : Option Piece := do
  let spaced ← after? fromChars s
  let gap := spaced.takeWhile isBlank
  match spaced.dropWhile isBlank with
  | [] => none
  | opening :: rest =>
    if isQuote opening then
      let rest ← after? frameworkPackage.toList rest
      let (internal, rest) :=
        match after? internalChars rest with
        | some rest => (true, rest)
        | none => (false, rest)
      match rest with
      | [] => none
      | closing :: _ =>
        if isQuote closing then some (.framework gap opening internal closing) else none
    else
      none

/-- The pieces of a text, of which `covered` characters belong to the last import. -/
def piecesFrom (covered : Nat) : List Char → List Piece
  | [] => []
  | c :: rest =>
    match covered with
    | n + 1 => piecesFrom n rest
    | 0 =>
      match framework? (c :: rest) with
      | some piece => piece :: piecesFrom (piece.chars.length - 1) rest
      | none => .other c :: piecesFrom 0 rest

/-- The pieces of a text. -/
def pieces (s : List Char) : List Piece :=
  piecesFrom 0 s

/-! ## Redirecting -/

/-- The specifier by which a declaration file names the framework's typings. -/
def typingsSpecifier (typesDir file : Path) (strays : Strays := .none) : String :=
  let way := ((file.directory.relative typesDir).join ⟨typingsName⟩).slashed strays
  if way.toList.head? = some '.' then way else "./" ++ way

/-- The text of a declaration file whose imports of the framework name its typings instead. -/
def redirect (typesDir file : Path) (content : String) (strays : Strays := .none) : String :=
  if occursIn frameworkPackage.toList content.toList then
    let specifier := (typingsSpecifier typesDir file strays).toList
    String.ofList ((pieces content.toList).flatMap (·.charsWith fun _ => specifier))
  else
    content

end WebComponents.Typings
