import Mathlib.Data.List.Basic
import WebComponents.Json.Document
import WebComponents.Json.Value

/-!
# Strings are read as they were written

A string is written character by character, and each character has one spelling:

```text
c                  written        read as
"  \  and breaks   \" \\ \n ..    the character
other controls     \u0000 ..      the code unit
any other          c              the character
```

`glyphOf` is the last column.  A scan takes the spelling of a character from the front of any text
(`scanString_escapeChar`), hence a whole string up to its closing quote (`scanString_stringChars`),
and the elements stand for the characters again (`text_ofText`).
-/

namespace WebComponents.Json

/-- The element as which a written character is read. -/
def glyphOf (c : Char) : Glyph :=
  if c < ' ' ∧ c ∉ ['\x08', '\x0C', '\n', '\r', '\t'] then .unit c.toNat else .char c

/-- The literal as which a written string is read. -/
def StringLiteral.ofText (text : String) : StringLiteral :=
  ⟨text.toList.map glyphOf, none⟩

/-! ## One character -/

theorem hexValue?_hexDigit : ∀ n < 16, hexValue? (hexDigit n) = some n := by
  decide

theorem toNat_lt_of_lt_space {c : Char} (h : c < ' ') : c.toNat < 32 :=
  UInt32.lt_iff_toNat_lt.mp h

/-- The four digits of a control character spell its code. -/
theorem hexNumber?_of_lt_space {c : Char} (h : c < ' ') :
    hexNumber? ['0', '0', hexDigit (c.toNat / 16), hexDigit (c.toNat % 16)] = some c.toNat := by
  have hlt := toNat_lt_of_lt_space h
  have hzero : hexValue? '0' = some 0 := by decide
  have hhigh := hexValue?_hexDigit (c.toNat / 16) (by omega)
  have hlow := hexValue?_hexDigit (c.toNat % 16) (by omega)
  simp only [hexNumber?, List.foldl_cons, List.foldl_nil, hzero, hhigh, hlow]
  exact congrArg some (by omega)

theorem scanString_char {c : Char} (hquote : c ≠ '"') (hslash : c ≠ '\\') (hspace : ¬ c < ' ')
    (rest : List Char) :
    scanString (c :: rest) = ((scanString rest).1.cons (.char c), (scanString rest).2) := by
  rw [scanString]
  · simp only [if_neg hspace]
  all_goals simp_all

/-- A scan takes the spelling of a character. -/
theorem scanString_escapeChar (c : Char) (rest : List Char) :
    scanString (escapeChar c ++ rest) =
      ((scanString rest).1.cons (glyphOf c), (scanString rest).2) := by
  by_cases hescaped : c ∈ ['"', '\\', '\x08', '\x0C', '\n', '\r', '\t']
  · -- each of these has its own letter
    simp only [List.mem_cons, List.not_mem_nil, or_false] at hescaped
    rcases hescaped with rfl | rfl | rfl | rfl | rfl | rfl | rfl <;> rfl
  · simp only [List.mem_cons, List.not_mem_nil, or_false, not_or] at hescaped
    obtain ⟨hquote, hslash, hback, hfeed, hline, hreturn, htab⟩ := hescaped
    by_cases hspace : c < ' '
    · have hchars : escapeChar c =
          ['\\', 'u', '0', '0', hexDigit (c.toNat / 16), hexDigit (c.toNat % 16)] := by
        simp [escapeChar, *]
      have hglyph : glyphOf c = .unit c.toNat := by simp [glyphOf, *]
      simp only [hchars, hglyph, List.cons_append, List.nil_append, scanString,
        hexNumber?_of_lt_space hspace]
    · have hchars : escapeChar c = [c] := by simp [escapeChar, *]
      have hglyph : glyphOf c = .char c := by simp [glyphOf, *]
      rw [hchars, hglyph]
      exact scanString_char hquote hslash hspace rest

/-! ## Whole strings -/

theorem scanString_flatMap_escapeChar (chars rest : List Char) :
    scanString (chars.flatMap escapeChar ++ '"' :: rest) = (⟨chars.map glyphOf, none⟩, rest) := by
  induction chars with
  | nil => rfl
  | cons c chars ih =>
      rw [List.flatMap_cons, List.append_assoc, scanString_escapeChar, ih]
      rfl

/-- A written string is scanned up to its closing quote. -/
theorem scanScalar_stringChars (text : String) (rest : List Char) :
    scanScalar '"' (text.toList.flatMap escapeChar ++ '"' :: rest) =
      (.string (.ofText text), rest) := by
  simp only [scanScalar, if_true, scanString_flatMap_escapeChar]
  rfl

/-- The element of a character stands for the character. -/
theorem glyphChars_glyphOf (c : Char) (glyphs : List Glyph) :
    glyphChars none (glyphOf c :: glyphs) = (c :: ·) <$> glyphChars none glyphs := by
  unfold glyphOf
  split
  · rename_i hcontrol
    -- the code of a control character is no half of a pair
    have hlt := toNat_lt_of_lt_space hcontrol.1
    have htrail : isTrailUnit c.toNat = false := by simp [isTrailUnit]; omega
    have hlead : isLeadUnit c.toNat = false := by simp [isLeadUnit]; omega
    rw [glyphChars.eq_def]
    simp only [htrail, hlead, Char.ofNat_toNat, Bool.false_eq_true, if_false]
    rfl
  · rw [glyphChars]
    rfl

theorem glyphChars_map_glyphOf (chars : List Char) :
    glyphChars none (chars.map glyphOf) = .ok chars := by
  induction chars with
  | nil => rfl
  | cons c chars ih =>
      rw [List.map_cons, glyphChars_glyphOf, ih]
      rfl

/-- The literal of a text stands for the text. -/
@[simp] theorem text_ofText (text : String) : (StringLiteral.ofText text).text = .ok text := by
  rw [StringLiteral.text, StringLiteral.ofText, glyphChars_map_glyphOf]
  exact congrArg Except.ok String.ofList_toList

end WebComponents.Json
