import WebComponents.Text.Blank
import WebComponents.Text.Case

/-!
# Component tags

A component is known to the page by its tag, a dash-case name such as `my-button`.  `fault?` goes
through the rules in a fixed order and tells the first one that the text breaks; a tag without a
fault is two or more non-empty words over small ASCII letters, digits and underscores, joined by
single dashes.
-/

namespace WebComponents.Tag

open Text

/-- What makes a text unfit as a tag. -/
inductive Fault where
  | outerBlank
  | upperCase
  | empty
  | space
  | comma
  | invalidCharacters (characters : String)
  | noDash
  | doubleDash
  | leadingDash
  | trailingDash
  deriving DecidableEq, Repr

/-- The characters that a tag may hold. -/
def isTagChar (c : Char) : Bool :=
  c.isAlphanum || c == '_' || c == '-'

/-- The first rule that the text breaks. -/
def charsFault? (s : List Char) : Option Fault :=
  let invalid := s.filter fun c => !isTagChar c
  if s ≠ trim s then some .outerBlank
  else if s ≠ lower s then some .upperCase
  else if s.isEmpty then some .empty
  else if s.contains ' ' then some .space
  else if s.contains ',' then some .comma
  else if !invalid.isEmpty then some (.invalidCharacters (String.ofList invalid))
  else if !s.contains '-' then some .noDash
  else if occursIn ['-', '-'] s then some .doubleDash
  else if s.head? = some '-' then some .leadingDash
  else if s.getLast? = some '-' then some .trailingDash
  else none

/-- The first rule that the tag breaks, if it breaks one. -/
def fault? (tag : String) : Option Fault :=
  charsFault? tag.toList

/-- The fault in words. -/
def Fault.message (tag : String) : Fault → String
  | .outerBlank => "Tag can not contain white spaces"
  | .upperCase => "Tag can not contain upper case characters"
  | .empty => "Received empty tag value"
  | .space => "\"" ++ tag ++ "\" tag cannot contain a space"
  | .comma => "\"" ++ tag ++ "\" tag cannot be used for multiple tags"
  | .invalidCharacters characters =>
    "\"" ++ tag ++ "\" tag contains invalid characters: " ++ characters
  | .noDash => "\"" ++ tag ++ "\" tag must contain a dash (-) to work as a valid web component"
  | .doubleDash => "\"" ++ tag ++ "\" tag cannot contain multiple dashes (--) next to each other"
  | .leadingDash => "\"" ++ tag ++ "\" tag cannot start with a dash (-)"
  | .trailingDash => "\"" ++ tag ++ "\" tag cannot end with a dash (-)"

end WebComponents.Tag
