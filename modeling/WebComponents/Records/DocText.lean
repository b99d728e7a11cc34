import WebComponents.Metadata.Basic
import WebComponents.Text.Blank

/-!
# The text of a doc comment

A doc comment is written as its description and one line for each tag, and each of them is kept on
one line: a line break inside becomes a space.  The tag `internal` is for the compiler alone.
-/

namespace WebComponents.Records

open Metadata

/-- The text with each line break replaced by a space. -/
def flattenChars : List Char → List Char
  | [] => []
  | '\r' :: '\n' :: rest => ' ' :: flattenChars rest
  | c :: rest => (if c = '\n' ∨ c = '\r' then ' ' else c) :: flattenChars rest

/-- The line of a tag. -/
def tagLine (tag : DocTag) : List Char :=
  '@' :: tag.name.toList ++ ' ' :: flattenChars (tag.text?.getD "").toList

/-- The tags that are shown. -/
def shownTags (docs : Docs) : List DocTag :=
  docs.tags.filter fun tag => tag.name ≠ "internal"

/-- The text of a doc comment. -/
def docText (docs : Docs) : String :=
  let lines := Text.join '\n' ((shownTags docs).map tagLine)
  String.ofList (Text.trim (flattenChars docs.text.toList ++ '\n' :: lines))

/-- The text of a doc comment that may be missing. -/
def optionalDocText (docs? : Option Docs) : String :=
  (docs?.map docText).getD ""

end WebComponents.Records
