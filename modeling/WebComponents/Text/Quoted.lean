import WebComponents.Text.Case
import WebComponents.Text.DisplayTable

/-!
# Text in quotes

A text that is shown to a person stands in double quotes.  Quotes, backslashes and the usual
controls get a backslash; a character that would not be seen, or that would join the one before it,
is shown by its number.
-/

namespace WebComponents.Text

/-- Whether a character is shown as itself. -/
def isDisplayed (c : Char) : Bool :=
  let code := c.toNat
  if code < 0x80 then 0x20 ≤ code && code < 0x7F
  else !inRanges graphemeExtendRanges code && !inRanges shapelessRanges code

/-- A character as it is shown inside double quotes. -/
def quotedChar (c : Char) : List Char :=
  if c = '\x00' then ['\\', '0']
  else if c = '\t' then ['\\', 't']
  else if c = '\n' then ['\\', 'n']
  else if c = '\r' then ['\\', 'r']
  else if c = '"' then ['\\', '"']
  else if c = '\\' then ['\\', '\\']
  else if isDisplayed c then [c]
  else ['\\', 'u', '\x7b'] ++ Nat.toDigits 16 c.toNat ++ ['\x7d']

/-- A text in double quotes. -/
def quoted (text : String) : String :=
  String.ofList ('"' :: text.toList.flatMap quotedChar ++ ['"'])

end WebComponents.Text
