import Mathlib.Tactic.Common
import WebComponents.Proofs.Naming.Tags
import WebComponents.Proofs.Text.Ascii
import WebComponents.Proofs.Text.Trimming

/-!
# The grammar of tags

The rules for tags are stated one by one and speak of the text as a whole: of its ends, of letters
that have a small form, of characters and pairs of characters that may not stand in it.  Together
they say that the text is a row of words,

```text
tag  ::=  word ("-" word)+          word  ::=  [a-z0-9_]+
```

The rules about characters leave small ASCII letters, digits, underscores and dashes
(`characterRules_iff`); the rules about dashes say that there are two words at least and that none
of them is empty (`dashRules_iff`).
-/

namespace WebComponents.Tag

open Text

/-! ## Words and rows of words -/

/-- A small ASCII letter, a digit or an underscore. -/
def isWordChar (c : Char) : Bool :=
  c.isLower || c.isDigit || c == '_'

/-- One or more such characters. -/
def IsWord (word : String) : Prop :=
  word ≠ "" ∧ ∀ c ∈ word.toList, isWordChar c = true

/-- Two or more words with a single dash between each two of them. -/
def IsDashed (tag : String) : Prop :=
  ∃ words : List String, 2 ≤ words.length ∧ (∀ word ∈ words, IsWord word) ∧
    tag = "-".intercalate words

variable {s : List Char} {tag : String} {c : Char}

theorem isWord_ofList_iff : IsWord (String.ofList s) ↔ s ≠ [] ∧ ∀ c ∈ s, isWordChar c = true := by
  rw [IsWord, String.toList_ofList, Ne, String.ofList_eq_empty_iff]

theorem dash_notMem_of_isWord {word : String} (h : IsWord word) : '-' ∉ word.toList :=
  fun hmem => absurd (h.2 _ hmem) (by decide)

theorem toList_intercalate_dash (words : List String) :
    ("-".intercalate words).toList = join '-' (words.map String.toList) := by
  rw [String.toList_intercalate]
  induction words with
  | nil => rfl
  | cons word words ih =>
      cases words with
      | nil => simp [join]
      | cons next words =>
          rw [List.map_cons] at ih
          rw [List.map_cons, List.map_cons, List.intercalate_cons_cons, ih]
          simp [join]

/-- The words are the pieces between the dashes. -/
theorem isDashed_iff_split :
    IsDashed tag ↔ 2 ≤ (split (· == '-') tag.toList).length ∧
      ∀ piece ∈ split (· == '-') tag.toList, piece ≠ [] ∧ ∀ c ∈ piece, isWordChar c = true := by
  constructor
  · rintro ⟨words, hlength, hwords, rfl⟩
    have hsplit : split (· == '-') ("-".intercalate words).toList = words.map String.toList := by
      rw [toList_intercalate_dash]
      apply split_join_eq_self
      · rintro hnil
        rw [List.map_eq_nil_iff.mp hnil] at hlength
        contradiction
      · intro piece hpiece
        obtain ⟨word, hword, rfl⟩ := List.mem_map.mp hpiece
        exact dash_notMem_of_isWord (hwords word hword)
    rw [hsplit, List.length_map]
    refine ⟨hlength, fun piece hpiece => ?_⟩
    obtain ⟨word, hword, rfl⟩ := List.mem_map.mp hpiece
    rw [← isWord_ofList_iff, String.ofList_toList]
    exact hwords word hword
  · rintro ⟨hlength, hpieces⟩
    refine ⟨(split (· == '-') tag.toList).map String.ofList, ?_, ?_, ?_⟩
    · rwa [List.length_map]
    · intro word hword
      obtain ⟨piece, hpiece, rfl⟩ := List.mem_map.mp hword
      exact isWord_ofList_iff.mpr (hpieces piece hpiece)
    · have hpieces : (split (· == '-') tag.toList).map (String.toList ∘ String.ofList) =
          split (· == '-') tag.toList := by
        simp [Function.comp_def]
      rw [← String.toList_inj, toList_intercalate_dash, List.map_map, hpieces, join_split]

/-! ## The rules -/

theorem isTagChar_and_toLower_iff :
    isTagChar c = true ∧ c.toLower = c ↔ isWordChar c = true ∨ c = '-' := by
  have hascii {c : Char} (h : c.toNat < 128) :
      isTagChar c = true ∧ c.toLower = c ↔ isWordChar c = true ∨ c = '-' :=
    forall_ascii c h (by decide)
  constructor
  · intro h
    exact (hascii (toNat_lt_of_isTagChar h.1)).mp h
  · intro h
    have htag : isTagChar c = true := by
      rcases h with hword | rfl
      · simp only [isWordChar, Bool.or_eq_true] at hword
        rcases hword with (hlower | hdigit) | hscore
        · simp [isTagChar, isAlphanum_iff.mpr (Or.inl (Or.inr hlower))]
        · simp [isTagChar, isAlphanum_iff.mpr (Or.inr hdigit)]
        · simp [isTagChar, hscore]
      · decide
    exact (hascii (toNat_lt_of_isTagChar htag)).mpr h

/-- A tag's characters are neither blank nor commas. -/
theorem not_blank_of_isTagChar (h : isTagChar c = true) :
    isBlank c = false ∧ c ≠ ' ' ∧ c ≠ ',' := by
  have hascii {c : Char} (hc : c.toNat < 128) :
      isTagChar c = true → isBlank c = false ∧ c ≠ ' ' ∧ c ≠ ',' :=
    forall_ascii c hc (by decide)
  exact hascii (toNat_lt_of_isTagChar h) h

theorem characterRules_iff :
    (s = trim s ∧ s = lower s ∧ ' ' ∉ s ∧ ',' ∉ s ∧ ∀ c ∈ s, isTagChar c = true) ↔
      ∀ c ∈ s, isWordChar c = true ∨ c = '-' := by
  constructor
  · rintro ⟨-, hlower, -, -, hchars⟩ c hc
    have hascii : IsAscii s := fun c hc => toNat_lt_of_isTagChar (hchars c hc)
    have hsmall := (lower_eq_self_iff hascii).mp hlower.symm
    exact isTagChar_and_toLower_iff.mp ⟨hchars c hc, hsmall c hc⟩
  · intro h
    have hchars : ∀ c ∈ s, isTagChar c = true ∧ c.toLower = c :=
      fun c hc => isTagChar_and_toLower_iff.mpr (h c hc)
    have hascii : IsAscii s := fun c hc => toNat_lt_of_isTagChar (hchars c hc).1
    have hblank {c : Char} (hc : c ∈ s) := not_blank_of_isTagChar (hchars c hc).1
    refine ⟨?_, ?_, ?_, ?_, fun c hc => (hchars c hc).1⟩
    · exact (trim_eq_self fun c hc => (hblank hc).1).symm
    · exact ((lower_eq_self_iff hascii).mpr fun c hc => (hchars c hc).2).symm
    · exact fun hmem => (hblank hmem).2.1 rfl
    · exact fun hmem => (hblank hmem).2.2 rfl

theorem dashRules_iff :
    (s ≠ [] ∧ '-' ∈ s ∧ occursIn ['-', '-'] s = false ∧ s.head? ≠ some '-' ∧
        s.getLast? ≠ some '-') ↔
      2 ≤ (split (· == '-') s).length ∧ ∀ piece ∈ split (· == '-') s, piece ≠ [] := by
  rw [two_le_length_split_iff, forall_split_ne_nil_iff]
  tauto

theorem charsFault?_eq_none_iff_split :
    charsFault? s = none ↔ 2 ≤ (split (· == '-') s).length ∧
      ∀ piece ∈ split (· == '-') s, piece ≠ [] ∧ ∀ c ∈ piece, isWordChar c = true := by
  have hwords : (∀ piece ∈ split (· == '-') s, ∀ c ∈ piece, isWordChar c = true) ↔
      ∀ c ∈ s, isWordChar c = true ∨ c = '-' := by
    rw [forall_mem_split_iff]
    refine forall₂_congr fun c _ => ?_
    rw [beq_eq_false_iff_ne]
    tauto
  calc charsFault? s = none
      ↔ (s = trim s ∧ s = lower s ∧ ' ' ∉ s ∧ ',' ∉ s ∧ ∀ c ∈ s, isTagChar c = true) ∧
          s ≠ [] ∧ '-' ∈ s ∧ occursIn ['-', '-'] s = false ∧ s.head? ≠ some '-' ∧
            s.getLast? ≠ some '-' := by
        rw [charsFault?_eq_none_iff]
        tauto
    _ ↔ (∀ piece ∈ split (· == '-') s, ∀ c ∈ piece, isWordChar c = true) ∧
          2 ≤ (split (· == '-') s).length ∧ ∀ piece ∈ split (· == '-') s, piece ≠ [] := by
        rw [characterRules_iff, dashRules_iff, hwords]
    _ ↔ _ := by
        rw [and_comm, and_assoc, ← forall₂_and]

/-- **The grammar of tags.**  A text has no fault exactly if it is two or more non-empty words over
small ASCII letters, digits and underscores, joined by single dashes. -/
theorem fault?_eq_none_iff_isDashed (tag : String) : fault? tag = none ↔ IsDashed tag := by
  rw [fault?, charsFault?_eq_none_iff_split, isDashed_iff_split]

end WebComponents.Tag
