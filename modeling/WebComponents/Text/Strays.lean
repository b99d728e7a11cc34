/-!
# Characters that stand for bytes

The names in a file system are bytes, and not all bytes are UTF-8.  Where a path has a byte that is
no part of a character, its text has a *stray* instead, a character that stands for this byte.
Bytes that make up a character are written as this character, never as strays.  Which characters are
strays is up to whoever spells the paths (`Strays`); a path of plain text has none.

What is done to paths looks at slashes, dots and backslashes alone, and none of these is a stray, so
all that holds of paths holds of such paths too.  Only where the size of a name is bounded, a stray
counts as the character that it is.

A text that is to be read by others has no place for a stray.  There it becomes a U+FFFD, and strays
that begin a character together and do not end it become one U+FFFD:

```text
bytes   2F FF 61      2F E2 82 61      2F E2 61       2F 82 82
shown   /  �  a       /  �     a       /  �  a        /  �  �
```
-/

namespace WebComponents.Text

/-- What stands in place of bytes that are no text. -/
def replacementChar : Char := '\uFFFD'

/-- The characters that stand for bytes which are no text.  ASCII characters stand for themselves,
and no byte has two strays. -/
structure Strays where
  byte? : Char → Option UInt8
  byte?_ascii : ∀ c, c.toNat < 0x80 → byte? c = none
  byte?_replacementChar : byte? replacementChar = none
  high_of_byte? : ∀ c byte, byte? c = some byte → 0x80 ≤ byte
  byte?_injective : ∀ c d byte, byte? c = some byte → byte? d = some byte → c = d

/-- The bytes that may come next in a character that began with the given byte, each between two
bounds; none if no longer character begins with it. -/
def continuations (first : UInt8) : List (UInt8 × UInt8) :=
  if 0xC2 ≤ first ∧ first ≤ 0xDF then [(0x80, 0xBF)]
  else if first = 0xE0 then [(0xA0, 0xBF), (0x80, 0xBF)]
  else if first = 0xED then [(0x80, 0x9F), (0x80, 0xBF)]
  else if 0xE1 ≤ first ∧ first ≤ 0xEF then [(0x80, 0xBF), (0x80, 0xBF)]
  else if first = 0xF0 then [(0x90, 0xBF), (0x80, 0xBF), (0x80, 0xBF)]
  else if 0xF1 ≤ first ∧ first ≤ 0xF3 then [(0x80, 0xBF), (0x80, 0xBF), (0x80, 0xBF)]
  else if first = 0xF4 then [(0x80, 0x8F), (0x80, 0xBF), (0x80, 0xBF)]
  else []

namespace Strays

/-- No character is a stray. -/
def none : Strays where
  byte? _ := .none
  byte?_ascii _ _ := rfl
  byte?_replacementChar := rfl
  high_of_byte? := nofun
  byte?_injective := nofun

/-- The characters from U+0080 to U+00FF stand for the bytes of the same number. -/
def latin1 : Strays where
  byte? c := if 0x80 ≤ c.toNat ∧ c.toNat ≤ 0xFF then some c.toNat.toUInt8 else .none
  byte?_ascii c hc := if_neg (by omega)
  byte?_replacementChar := by decide
  high_of_byte? c byte h := by
    split at h
    · cases h
      rw [UInt8.le_iff_toNat_le, Nat.toUInt8_eq, UInt8.toNat_ofNat']
      change 0x80 ≤ c.toNat % 0x100
      omega
    · cases h
  byte?_injective c d byte hc hd := by
    split at hc
    · split at hd
      · have hbytes := congrArg UInt8.toNat (Option.some_inj.mp (hc.trans hd.symm))
        simp only [Nat.toUInt8_eq, UInt8.toNat_ofNat'] at hbytes
        exact Char.toNat_inj.mp (by omega)
      · cases hd
    · cases hc

/-- How many strays at the start of the text go on with a character that was begun. -/
def goingOn (strays : Strays) : List (UInt8 × UInt8) → List Char → Nat
  | (low, high) :: bounds, c :: rest =>
    match strays.byte? c with
    | some byte => if low ≤ byte ∧ byte ≤ high then strays.goingOn bounds rest + 1 else 0
    | .none => 0
  | _, _ => 0

/-- The text as it is shown, of which `covered` strays belong to the last replacement. -/
def shownFrom (strays : Strays) (covered : Nat) : List Char → List Char
  | [] => []
  | c :: rest =>
    match covered with
    | n + 1 => strays.shownFrom n rest
    | 0 =>
      match strays.byte? c with
      | .none => c :: strays.shownFrom 0 rest
      | some byte =>
        replacementChar :: strays.shownFrom (strays.goingOn (continuations byte) rest) rest

/-- The text with a replacement for the strays. -/
def shown (strays : Strays) (s : List Char) : List Char :=
  strays.shownFrom 0 s

example : ["/ÿa", "/â\u0082a", "/âa", "/\u0082\u0082"].map (fun s => latin1.shown s.toList) =
    ["/\uFFFDa", "/\uFFFDa", "/\uFFFDa", "/\uFFFD\uFFFD"].map String.toList := by
  decide

end Strays

end WebComponents.Text
