import Mathlib.Tactic.Common
import WebComponents.Proofs.Naming.Grammar
import WebComponents.Proofs.Naming.VariableWords

/-!
# Word boundaries in tags and classes

A tag marks its words by dashes, the class that is named after it by capitals and digits.  Going
from the tag to the class and back gives the tag again only if both see the same words:

```text
tag            class          back
my-button      MyButton       my-button
_my-1st_item   _my1st_item    _my-1st_item
my-h1          MyH1           my-h-1           a digit inside a word
my-_item       My_item        my_item          a word without a capital form
```

The way back writes a dash before each capital and each digit but the first character
(`dashChars_cons`).  Both texts have the same characters between their dashes, so where one has a
dash and the other has none, they differ from there on.  The comparison goes through the words one
by one, and through each word character by character (`dashStarts_append_eq_iff`).
-/

namespace WebComponents.Naming

open Text

/-- The text in small letters, with a dash before each character that starts a word. -/
def dashStarts (s : List Char) : List Char :=
  s.flatMap fun c => if startsWord c then ['-', c.toLower] else [c.toLower]

variable {s word rest rest' : List Char} {pieces : List (List Char)} {c : Char}

/-! ## The way back -/

theorem dashStarts_append (s t : List Char) :
    dashStarts (s ++ t) = dashStarts s ++ dashStarts t :=
  List.flatMap_append

theorem dashStarts_cons (c : Char) (s : List Char) :
    dashStarts (c :: s) =
      (if startsWord c then ['-', c.toLower] else [c.toLower]) ++ dashStarts s :=
  List.flatMap_cons

/-- A space in front of the first word is trimmed, and all others stay. -/
theorem trim_spaceWords_cons (h : ∀ d ∈ c :: s, isBlank d = false) :
    trim (spaceWords (c :: s)) = c :: spaceWords s := by
  obtain ⟨hc, hs⟩ := List.forall_mem_cons.mp h
  have hspace : isBlank ' ' = true := by decide
  have hneg : ¬ isBlank c = true := by simp [hc]
  have hstart : trimStart (spaceWords (c :: s)) = c :: spaceWords s := by
    rw [spaceWords_cons, trimStart]
    split
    · show List.dropWhile isBlank (' ' :: c :: spaceWords s) = c :: spaceWords s
      rw [List.dropWhile_cons_of_pos hspace, List.dropWhile_cons_of_neg hneg]
    · exact List.dropWhile_cons_of_neg hneg
  have hend : trimEnd (spaceWords s) = spaceWords s := by
    rw [trimEnd_spaceWords, trimEnd, dropEndWhile_eq_self hs]
  rw [trim, hstart, trimEnd, dropEndWhile_cons_of_neg hc]
  exact congrArg (c :: ·) hend

/-- Each space is followed by the character that it was put before. -/
theorem ne_nil_of_mem_split_spaced (hc : c ≠ ' ') (h : ' ' ∉ s) :
    ∀ piece ∈ split (· == ' ') (c :: spaceWords s), piece ≠ [] := by
  induction s generalizing c with
  | nil => simp [spaceWords, split, hc]
  | cons d s ih =>
      obtain ⟨hd, hs⟩ := not_or.mp (mt List.mem_cons.mpr h)
      have hlater := ih (Ne.symm hd) hs
      have hfirst : (c == ' ') = false := by simpa using hc
      rw [spaceWords_cons]
      split
      · have hspace : ((' ' : Char) == ' ') = true := rfl
        show ∀ piece ∈ split (· == ' ') ([c] ++ ' ' :: d :: spaceWords s), piece ≠ []
        rw [split_append_cons (· == ' ') _ _ hspace, List.forall_mem_append]
        exact ⟨by simp [split, hc], hlater⟩
      · obtain ⟨piece, pieces, hsplit, hcons⟩ :=
          exists_split_cons (· == ' ') hfirst (d :: spaceWords s)
        rw [hsplit, List.forall_mem_cons] at hlater
        rw [List.singleton_append, hcons, List.forall_mem_cons]
        exact ⟨List.cons_ne_nil _ _, hlater.2⟩

/-- The spaces become dashes, and all else becomes small. -/
theorem map_spaceWords (h : ∀ d ∈ s, d ≠ ' ') :
    (spaceWords s).map (fun d => (if d = ' ' then '-' else d).toLower) = dashStarts s := by
  rw [spaceWords, List.map_flatMap]
  apply List.flatMap_congr
  intro d hd
  have hdash : (if ' ' = ' ' then '-' else ' ').toLower = '-' := by decide
  split
  · rw [List.map_cons, hdash, List.map_singleton, if_neg (h d hd)]
  · rw [List.map_singleton, if_neg (h d hd)]

/-- A text without blanks is put in small letters, with a dash before each character but the first
that starts a word. -/
theorem dashChars_cons (hascii : IsAscii (c :: s)) (hblank : ∀ d ∈ c :: s, isBlank d = false) :
    dashChars (c :: s) = c.toLower :: dashStarts s := by
  obtain ⟨hc, hs⟩ := List.forall_mem_cons.mp hascii
  have hnospace : ∀ d ∈ c :: s, d ≠ ' ' := by
    rintro d hd rfl
    exact absurd (hblank _ hd) (by decide)
  obtain ⟨hcspace, hspace⟩ := List.forall_mem_cons.mp hnospace
  have hwords : (split (· == ' ') (c :: spaceWords s)).filter (fun word => !word.isEmpty) =
      split (· == ' ') (c :: spaceWords s) := by
    apply List.filter_eq_self.mpr
    intro word hword
    simpa using ne_nil_of_mem_split_spaced hcspace (fun hmem => hspace _ hmem rfl) word hword
  have hdashed : IsAscii ((c :: spaceWords s).map fun d => if d = ' ' then '-' else d) := by
    intro e he
    obtain ⟨d, hd, rfl⟩ := List.mem_map.mp he
    rw [← trim_spaceWords_cons hblank] at hd
    split
    · decide
    · exact isAscii_trim_spaceWords hascii d hd
  calc dashChars (c :: s)
      = lower (join '-' (split (· == ' ') (c :: spaceWords s))) := by
        rw [dashChars, trim_spaceWords_cons hblank, hwords]
    _ = ((c :: spaceWords s).map fun d => if d = ' ' then '-' else d).map Char.toLower := by
        rw [join_split_eq_map, lower_of_isAscii hdashed]
    _ = c.toLower :: (spaceWords s).map fun d => (if d = ' ' then '-' else d).toLower := by
        rw [List.map_map, List.map_cons, Function.comp_apply, if_neg hcspace]
        rfl
    _ = c.toLower :: dashStarts s := by rw [map_spaceWords hspace]

/-! ## Characters of a tag -/

/-- A fact about the codes of a tag's characters. -/
@[elab_as_elim]
theorem forall_isWordChar {motive : Char → Prop} (c : Char) (hc : Tag.isWordChar c = true)
    (h : ∀ code < 128, Tag.isWordChar (Char.ofNat code) = true → motive (Char.ofNat code)) :
    motive c := by
  have htag := (Tag.isTagChar_and_toLower_iff.mpr (Or.inl hc)).1
  have hcode := h c.toNat (Tag.toNat_lt_of_isTagChar htag)
  rw [Char.ofNat_toNat] at hcode
  exact hcode hc

theorem startsWord_of_isWordChar (h : Tag.isWordChar c = true) : startsWord c = c.isDigit :=
  forall_isWordChar c h (by decide)

/-- All characters of a tag's words but the underscore start a word in capital form. -/
theorem startsWord_toUpper_iff (h : Tag.isWordChar c = true) :
    startsWord c.toUpper = true ↔ c ≠ '_' :=
  forall_isWordChar c h (by decide)

theorem toLower_of_isWordChar (h : Tag.isWordChar c = true) :
    c.toLower = c ∧ c.toUpper.toLower = c :=
  forall_isWordChar c h (by decide)

theorem ne_dash_of_isWordChar (h : Tag.isWordChar c = true) : c ≠ '-' :=
  forall_isWordChar c h (by decide)

theorem upperChar_of_isWordChar (h : Tag.isWordChar c = true) : upperChar c = [c.toUpper] :=
  upperChar_of_ascii (forall_isWordChar c h (by decide))

/-- A class name has no blanks. -/
theorem ascii_of_mem_capitalize (h : ∀ d ∈ word, Tag.isWordChar d = true) {d : Char}
    (hd : d ∈ capitalize word) : d.toNat < 128 ∧ isBlank d = false := by
  cases word with
  | nil => cases hd
  | cons c word =>
      obtain ⟨hc, hword⟩ := List.forall_mem_cons.mp h
      rw [capitalize, upperChar_of_isWordChar hc, List.singleton_append] at hd
      rcases List.mem_cons.mp hd with rfl | hmem
      · exact forall_isWordChar c hc (by decide)
      · exact forall_isWordChar d (hword d hmem) (by decide)

/-! ## Word by word -/

/-- Inside a word a dash is written before each digit. -/
theorem dashStarts_append_eq_iff (h : ∀ c ∈ word, Tag.isWordChar c = true) :
    dashStarts word ++ rest = word ++ rest' ↔ (∀ c ∈ word, c.isDigit = false) ∧ rest = rest' := by
  induction word with
  | nil => simp [dashStarts]
  | cons c word ih =>
      obtain ⟨hc, hword⟩ := List.forall_mem_cons.mp h
      have hdash : '-' ≠ c := (ne_dash_of_isWordChar hc).symm
      rw [dashStarts_cons, startsWord_of_isWordChar hc, (toLower_of_isWordChar hc).1,
        List.forall_mem_cons]
      cases hdigit : c.isDigit with
      | true => simp [hdash]
      | false => simp [ih hword]

/-- At the start of a word a dash is written, unless an underscore stands there. -/
theorem dashStarts_capitalize_append_eq_iff
    (h : ∀ d ∈ c :: word, Tag.isWordChar d = true) :
    dashStarts (capitalize (c :: word)) ++ rest = '-' :: c :: word ++ rest' ↔
      c ≠ '_' ∧ (∀ d ∈ word, d.isDigit = false) ∧ rest = rest' := by
  obtain ⟨hc, hword⟩ := List.forall_mem_cons.mp h
  rw [capitalize, upperChar_of_isWordChar hc, List.singleton_append, dashStarts_cons,
    (toLower_of_isWordChar hc).2]
  by_cases hscore : c = '_'
  · have hnot : ¬ startsWord c.toUpper = true := fun h => (startsWord_toUpper_iff hc).mp h hscore
    rw [if_neg hnot]
    simp [hscore]
  · rw [if_pos ((startsWord_toUpper_iff hc).mpr hscore)]
    simpa [hscore] using dashStarts_append_eq_iff hword

/-- The words after the first. -/
theorem dashStarts_flatMap_eq_iff
    (h : ∀ piece ∈ pieces, piece ≠ [] ∧ ∀ c ∈ piece, Tag.isWordChar c = true) :
    dashStarts (pieces.flatMap capitalize) = pieces.flatMap (fun piece => '-' :: piece) ↔
      ∀ piece ∈ pieces, piece.head? ≠ some '_' ∧ ∀ c ∈ piece.tail, c.isDigit = false := by
  induction pieces with
  | nil => simp [dashStarts]
  | cons piece pieces ih =>
      obtain ⟨⟨hne, hpiece⟩, hpieces⟩ := List.forall_mem_cons.mp h
      obtain ⟨c, word, rfl⟩ := List.exists_cons_of_ne_nil hne
      rw [List.flatMap_cons, List.flatMap_cons, dashStarts_append,
        dashStarts_capitalize_append_eq_iff hpiece, ih hpieces, List.forall_mem_cons]
      simp [and_assoc]

/-- The way back keeps the first word's first character and writes dashes after it. -/
theorem dashChars_flatMap_capitalize
    (h : ∀ piece ∈ (c :: word) :: pieces, ∀ d ∈ piece, Tag.isWordChar d = true) :
    dashChars (((c :: word) :: pieces).flatMap capitalize) =
      c :: (dashStarts word ++ dashStarts (pieces.flatMap capitalize)) := by
  have hclass : ∀ d ∈ ((c :: word) :: pieces).flatMap capitalize,
      d.toNat < 128 ∧ isBlank d = false := by
    intro d hd
    obtain ⟨piece, hpiece, hmem⟩ := List.mem_flatMap.mp hd
    exact ascii_of_mem_capitalize (h piece hpiece) hmem
  have hc : Tag.isWordChar c = true := h _ List.mem_cons_self c List.mem_cons_self
  have hcapital : ((c :: word) :: pieces).flatMap capitalize =
      c.toUpper :: (word ++ pieces.flatMap capitalize) := by
    rw [List.flatMap_cons, capitalize, upperChar_of_isWordChar hc]
    rfl
  rw [hcapital] at hclass ⊢
  rw [dashChars_cons (fun d hd => (hclass d hd).1) (fun d hd => (hclass d hd).2),
    (toLower_of_isWordChar hc).2, dashStarts_append]

/-- **Classes that determine their tags.**  A tag without a fault is made again from its class name
exactly if no word has a digit after its first character and no word but the first starts with an
underscore. -/
theorem dashCase_pascalCase_eq_iff {tag : String} (h : Tag.fault? tag = none) :
    dashCase (pascalCase tag) = tag ↔
      (∀ word ∈ split (· == '-') tag.toList, ∀ c ∈ word.tail, c.isDigit = false) ∧
        ∀ word ∈ (split (· == '-') tag.toList).tail, word.head? ≠ some '_' := by
  have hwords := (Tag.charsFault?_eq_none_iff_split.mp h).2
  have htag := join_split '-' tag.toList
  obtain ⟨first, later, hsplit⟩ :=
    List.exists_cons_of_ne_nil (split_ne_nil (· == '-') tag.toList)
  rw [hsplit] at hwords htag
  obtain ⟨⟨hne, hfirst⟩, hlater⟩ := List.forall_mem_cons.mp hwords
  obtain ⟨c, word, rfl⟩ := List.exists_cons_of_ne_nil hne
  have hword : ∀ d ∈ word, Tag.isWordChar d = true :=
    fun d hd => hfirst d (List.mem_cons_of_mem _ hd)
  calc dashCase (pascalCase tag) = tag
      ↔ dashChars (((c :: word) :: later).flatMap capitalize) = tag.toList := by
        rw [← String.toList_inj, dashCase, pascalCase, String.toList_ofList, String.toList_ofList,
          pascalChars, hsplit]
    _ ↔ dashStarts word ++ dashStarts (later.flatMap capitalize) =
          word ++ later.flatMap fun piece => '-' :: piece := by
        rw [dashChars_flatMap_capitalize fun piece hpiece => (hwords piece hpiece).2, ← htag,
          join_cons, List.cons_append, List.cons_inj_right]
    _ ↔ (∀ d ∈ word, d.isDigit = false) ∧
          ∀ piece ∈ later, piece.head? ≠ some '_' ∧ ∀ d ∈ piece.tail, d.isDigit = false := by
        rw [dashStarts_append_eq_iff hword, dashStarts_flatMap_eq_iff hlater]
    _ ↔ _ := by
        rw [hsplit, List.forall_mem_cons, List.tail_cons, List.tail_cons, forall₂_and]
        tauto

/-- A tag with underscores and a digit at the start of a word comes back, and one with a digit
inside a word does not. -/
theorem dashCase_pascalCase_eq_iff_heading :
    Tag.fault? "_my-1st_item" = none ∧ dashCase (pascalCase "_my-1st_item") = "_my-1st_item" ∧
      Tag.fault? "my-h1" = none ∧ dashCase (pascalCase "my-h1") ≠ "my-h1" := by
  have hitem : Tag.fault? "_my-1st_item" = none := by decide
  have hheading : Tag.fault? "my-h1" = none := by decide
  have hwords : split (· == '-') "_my-1st_item".toList = ["_my".toList, "1st_item".toList] := by
    decide
  refine ⟨hitem, (dashCase_pascalCase_eq_iff hitem).mpr ?_, hheading, ?_⟩
  · rw [hwords]
    simp
  · intro hback
    have hletters := ((dashCase_pascalCase_eq_iff hheading).mp hback).1
    exact absurd (hletters ['h', '1'] (by decide) '1' (by decide)) (by decide)

end WebComponents.Naming
