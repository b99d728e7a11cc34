import Mathlib.Data.List.Basic
import Mathlib.Tactic.Common
import WebComponents.Proofs.Text.Ascii
import WebComponents.Proofs.Text.Trimming

/-!
# Small forms are small

The characters of a small form are small (`isSmall_of_mem_lower`), and a text of small characters is
its own small form (`lower_of_isSmall`).  Outside ASCII this rests on the tables: no run leads to a
code that a run holds.  The codes of a run and their images are rows with a fixed stride, so runs
are compared with each other and not letter by letter:

```text
run             images          another run
00C0 … 00DE     00E0 … 00FE     0100 … 012E     the rows lie apart
0100 … 012E     0101 … 012F     0100 … 012E     the rows alternate
01CA            01CC            01CB … 01DB     the image lies between two codes
```

The same comparison shows that runs lead to letters only, never to a blank or a digit
(`of_mem_lowerChar`).
-/

namespace WebComponents.Text

variable {run other : CaseRun} {runs : Array CaseRun} {code image : Nat}

/-! ## Runs -/

/-- The code to which the run moves one of its codes. -/
def CaseRun.imageOf (run : CaseRun) (code : Nat) : Nat :=
  (code + run.shift).toNat

/-- The images of the run are no codes of the other one: the rows lie apart, or they alternate. -/
def CaseRun.misses (run other : CaseRun) : Bool :=
  (run.imageOf run.last).blt other.first || other.last.blt (run.imageOf run.first) ||
    (other.stride == 2 && (run.stride == 2 || run.first == run.last) &&
      Nat.blt 0 (run.imageOf run.first) && (run.imageOf run.first + other.first) % 2 == 1)

theorem CaseRun.image?_eq_some_iff :
    run.image? code = some image ↔
      (run.first ≤ code ∧ code ≤ run.last ∧ (code - run.first) % run.stride = 0) ∧
        image = run.imageOf code := by
  unfold CaseRun.image? CaseRun.imageOf
  split
  · next hholds => simp [hholds, eq_comm]
  · next hholds => simp [hholds]

theorem CaseRun.image?_eq_none_iff :
    run.image? code = none ↔
      ¬ (run.first ≤ code ∧ code ≤ run.last ∧ (code - run.first) % run.stride = 0) := by
  unfold CaseRun.image?
  split <;> simp [*]

theorem CaseRun.image?_eq_none_of_misses (h : run.misses other = true)
    (hcode : run.image? code = some image) : other.image? image = none := by
  obtain ⟨⟨hfirst, hlast, hstride⟩, rfl⟩ := CaseRun.image?_eq_some_iff.mp hcode
  have hlow : run.imageOf run.first ≤ run.imageOf code := by
    unfold CaseRun.imageOf
    omega
  have hhigh : run.imageOf code ≤ run.imageOf run.last := by
    unfold CaseRun.imageOf
    omega
  simp only [CaseRun.misses, Bool.or_eq_true, Bool.and_eq_true, Nat.blt_eq, beq_iff_eq] at h
  rw [CaseRun.image?_eq_none_iff]
  rintro ⟨hother, hother', hheld⟩
  rcases h with (happart | hbehind) | ⟨⟨⟨hevery, hrow⟩, hpositive⟩, hodd⟩
  · omega
  · omega
  · have heven : (run.imageOf code - run.imageOf run.first) % 2 = 0 := by
      unfold CaseRun.imageOf at hpositive ⊢
      rcases hrow with hsecond | hsingle
      · rw [hsecond] at hstride
        omega
      · omega
    rw [hevery] at hheld
    omega

/-- A code stays where it is, or a run moves it. -/
theorem mapByRuns_cases (runs : Array CaseRun) (code : Nat) :
    (mapByRuns runs code = code ∧ ∀ run ∈ runs, run.image? code = none) ∨
      ∃ run ∈ runs, run.image? code = some (mapByRuns runs code) := by
  unfold mapByRuns
  cases hfind : runs.findSome? (·.image? code) with
  | none => exact Or.inl ⟨rfl, Array.findSome?_eq_none_iff.mp hfind⟩
  | some image => exact Or.inr (Array.exists_of_findSome?_eq_some hfind)

theorem mapByRuns_of_image?_eq_none (h : ∀ run ∈ runs, run.image? code = none) :
    mapByRuns runs code = code := by
  rw [mapByRuns, Array.findSome?_eq_none_iff.mpr h, Option.getD_none]

/-! ## The table of small letters -/

/-- Rows of codes that no small letter of the table has: ASCII without the letter `k`, which is the
small form of the sign for kelvin; the letter with a small form of its own rule; and blanks. -/
def passedRows : List CaseRun :=
  [⟨0x00, 0x6A, 1, 0⟩, ⟨0x6C, 0x7F, 1, 0⟩, ⟨0x85, 0x85, 1, 0⟩, ⟨0xA0, 0xA0, 1, 0⟩,
    ⟨0x130, 0x130, 1, 0⟩, ⟨0x1680, 0x1680, 1, 0⟩, ⟨0x2000, 0x200A, 1, 0⟩,
    ⟨0x2028, 0x2029, 1, 0⟩, ⟨0x202F, 0x202F, 1, 0⟩, ⟨0x205F, 0x205F, 1, 0⟩,
    ⟨0x3000, 0x3000, 1, 0⟩]

theorem misses_lowerRuns :
    (lowerRuns.toList.all fun run => (lowerRuns.toList ++ passedRows).all run.misses) = true := by
  decide +kernel

/-- What a run of the table leads to is in no other run and in no row that is passed over. -/
theorem image?_eq_none_of_lowerRuns (hrun : run ∈ lowerRuns) (hcode : run.image? code = some image)
    (hother : other ∈ lowerRuns.toList ++ passedRows) : other.image? image = none := by
  have hall := List.all_eq_true.mp misses_lowerRuns run (Array.mem_toList_iff.mpr hrun)
  exact CaseRun.image?_eq_none_of_misses (List.all_eq_true.mp hall other hother) hcode

/-! ## Single characters -/

/-- A character that is its own small form. -/
def IsSmall (c : Char) : Prop :=
  lowerChar c = [c]

instance : DecidablePred IsSmall := fun c =>
  inferInstanceAs (Decidable (lowerChar c = [c]))

variable {c d : Char} {s before rest : List Char}

theorem ne_sigma_of_isSmall (h : IsSmall c) : c ≠ 'Σ' := by
  rintro rfl
  revert h
  decide +kernel

theorem toNat_lt_of_isDigit (h : c.isDigit = true) : c.toNat < 128 :=
  toNat_lt_of_isAlphanum (isAlphanum_iff.mpr (Or.inr h))

theorem isSmall_of_isDigit (h : c.isDigit = true) : IsSmall c := by
  have hascii : c.isDigit = true → IsSmall c := forall_ascii c (toNat_lt_of_isDigit h) (by decide)
  exact hascii h

/-- No capital is small, so only digits start a word in a small text. -/
theorem isUpper_of_isSmall (h : IsSmall c) : c.isUpper = false := by
  by_contra hupper
  have halnum : c.isAlphanum = true :=
    isAlphanum_iff.mpr (Or.inl (Or.inl (by simpa using hupper)))
  have hascii : IsSmall c → c.isUpper = false :=
    forall_ascii c (toNat_lt_of_isAlphanum halnum) (by decide)
  exact hupper (hascii h)

/-- Outside ASCII a character that no run of the table holds is small, but for the one with a rule
of its own. -/
theorem isSmall_of_image?_eq_none (hascii : ¬ c.toNat < 128) (hdotted : c ≠ 'İ')
    (h : ∀ run ∈ lowerRuns, run.image? c.toNat = none) : IsSmall c := by
  rw [IsSmall, lowerChar, if_neg hascii, if_neg hdotted, mapByRuns_of_image?_eq_none h,
    Char.ofNat_toNat]

/-- The two small letters sigma, and the dot that is left over from a capital letter with one. -/
theorem isSmall_of_mem_marks (h : c ∈ ['ς', 'σ', '\u0307']) : IsSmall c := by
  have hoff : (['ς', 'σ', '\u0307'].all fun c =>
      lowerRuns.toList.all fun run => (run.image? c.toNat).isNone) = true := by decide +kernel
  have hmark : ¬ c.toNat < 128 ∧ c ≠ 'İ' := by
    simp only [List.mem_cons, List.not_mem_nil, or_false] at h
    rcases h with rfl | rfl | rfl <;> decide
  refine isSmall_of_image?_eq_none hmark.1 hmark.2 fun run hrun => ?_
  have hall := List.all_eq_true.mp hoff c h
  exact Option.isNone_iff_eq_none.mp (List.all_eq_true.mp hall run (Array.mem_toList_iff.mpr hrun))

/-- A small letter of the table is small, and neither blank nor a digit. -/
theorem isSmall_of_toNat_eq_image (hrun : run ∈ lowerRuns) (hcode : run.image? code = some image)
    (hc : c.toNat = image) : IsSmall c ∧ isBlank c = false ∧ c.isDigit = false := by
  have hmissed : ∀ other ∈ passedRows, other.image? image = none := fun other hother =>
    image?_eq_none_of_lowerRuns hrun hcode (List.mem_append_right _ hother)
  simp only [passedRows, List.forall_mem_cons, CaseRun.image?_eq_none_iff, Nat.mod_one, and_true]
    at hmissed
  rcases Nat.lt_or_ge image 128 with hascii | hlarge
  · have hk : c.toNat = 'k'.toNat := by
      rw [hc]
      change image = 0x6B
      omega
    obtain rfl : c = 'k' := Char.toNat_inj.mp hk
    decide
  · refine ⟨?_, ?_, ?_⟩
    · have hdotted : c ≠ 'İ' := by
        rintro rfl
        have hplace : 'İ'.toNat = 0x130 := by decide
        omega
      refine isSmall_of_image?_eq_none (by omega) hdotted fun other hother => ?_
      rw [hc]
      exact image?_eq_none_of_lowerRuns hrun hcode
        (List.mem_append_left _ (Array.mem_toList_iff.mpr hother))
    · simp only [isBlank, hc, Bool.or_eq_false_iff, Bool.and_eq_false_iff,
        decide_eq_false_iff_not, beq_eq_false_iff_ne]
      omega
    · by_contra hdigit
      have hascii := toNat_lt_of_isDigit (by simpa using hdigit)
      omega

theorem isSmall_image (hrun : run ∈ lowerRuns) (hcode : run.image? code = some image) :
    IsSmall (Char.ofNat image) ∧ isBlank (Char.ofNat image) = false ∧
      (Char.ofNat image).isDigit = false := by
  by_cases hvalid : image.isValidChar
  · apply isSmall_of_toNat_eq_image hrun hcode
    rw [Char.ofNat, dif_pos hvalid]
    rfl
  · -- a code of no character would stand for the character with the code zero
    rw [Char.ofNat, dif_neg hvalid]
    decide

/-- The small form of a character is small.  It is the character itself, or it is made of letters
and marks. -/
theorem of_mem_lowerChar (h : d ∈ lowerChar c) :
    IsSmall d ∧ (d = c ∨ isBlank d = false ∧ d.isDigit = false) := by
  by_cases hascii : c.toNat < 128
  · rw [lowerChar_of_ascii hascii, List.mem_singleton] at h
    subst h
    exact forall_ascii c hascii (by decide)
  · rw [lowerChar, if_neg hascii] at h
    split at h
    · next hdotted =>
        subst hdotted
        rcases List.mem_pair.mp h with rfl | rfl
        · decide
        · exact ⟨isSmall_of_mem_marks (by decide), Or.inr (by decide)⟩
    · next hdotted =>
        rw [List.mem_singleton.mp h]
        rcases mapByRuns_cases lowerRuns c.toNat with ⟨hsame, hnone⟩ | ⟨run, hrun, hcode⟩
        · rw [hsame, Char.ofNat_toNat]
          exact ⟨isSmall_of_image?_eq_none hascii hdotted hnone, Or.inl rfl⟩
        · obtain ⟨hsmall, hfacts⟩ := isSmall_image hrun hcode
          exact ⟨hsmall, Or.inr hfacts⟩

/-! ## Texts -/

/-- The small form of a character between others, of which the nearest before it comes first. -/
def smallAt (before : List Char) (c : Char) (rest : List Char) : List Char :=
  if c = 'Σ' then
    if beginsCased before && !beginsCased rest then ['ς'] else ['σ']
  else
    lowerChar c

theorem lowerAfter_cons (before : List Char) (c : Char) (rest : List Char) :
    lowerAfter before (c :: rest) = smallAt before c rest ++ lowerAfter (c :: before) rest :=
  rfl

theorem smallAt_of_isSmall (h : IsSmall c) : smallAt before c rest = [c] := by
  rw [smallAt, if_neg (ne_sigma_of_isSmall h), h]

theorem smallAt_ne_nil (before : List Char) (c : Char) (rest : List Char) :
    smallAt before c rest ≠ [] := by
  unfold smallAt lowerChar
  repeat' split
  all_goals exact List.cons_ne_nil _ _

theorem of_mem_smallAt (h : d ∈ smallAt before c rest) :
    IsSmall d ∧ (d = c ∨ isBlank d = false ∧ d.isDigit = false) := by
  unfold smallAt at h
  split at h
  · split at h
    · rw [List.mem_singleton.mp h]
      exact ⟨isSmall_of_mem_marks (by decide), Or.inr (by decide)⟩
    · rw [List.mem_singleton.mp h]
      exact ⟨isSmall_of_mem_marks (by decide), Or.inr (by decide)⟩
  · exact of_mem_lowerChar h

theorem isBlank_of_mem_smallAt (h : d ∈ smallAt before c rest) (hc : isBlank c = false) :
    isBlank d = false := by
  rcases (of_mem_smallAt h).2 with rfl | ⟨hletter, -⟩
  · exact hc
  · exact hletter

theorem isDigit_of_mem_smallAt (h : d ∈ smallAt before c rest) (hc : c.isDigit = false) :
    d.isDigit = false := by
  rcases (of_mem_smallAt h).2 with rfl | ⟨-, hletter⟩
  · exact hc
  · exact hletter

/-- Each character of a text in small letters belongs to the small form of one that was there. -/
theorem exists_of_mem_lowerAfter (h : d ∈ lowerAfter before s) :
    ∃ c ∈ s, ∃ before rest, d ∈ smallAt before c rest := by
  induction s generalizing before with
  | nil => cases h
  | cons c s ih =>
      rw [lowerAfter_cons, List.mem_append] at h
      rcases h with hfirst | hrest
      · exact ⟨c, List.mem_cons_self, before, s, hfirst⟩
      · obtain ⟨e, he, hsmall⟩ := ih hrest
        exact ⟨e, List.mem_cons_of_mem _ he, hsmall⟩

theorem isSmall_of_mem_lower (h : d ∈ lower s) : IsSmall d := by
  obtain ⟨c, -, before, rest, hd⟩ := exists_of_mem_lowerAfter h
  exact (of_mem_smallAt hd).1

/-- A blank in small letters was there before. -/
theorem mem_of_mem_lower_of_isBlank (h : d ∈ lower s) (hd : isBlank d = true) : d ∈ s := by
  obtain ⟨c, hc, before, rest, hsmall⟩ := exists_of_mem_lowerAfter h
  rcases (of_mem_smallAt hsmall).2 with rfl | ⟨hletter, -⟩
  · exact hc
  · rw [hletter] at hd
    cases hd

theorem lower_of_isSmall (h : ∀ c ∈ s, IsSmall c) : lower s = s := by
  suffices hafter : ∀ before, lowerAfter before s = s from hafter []
  induction s with
  | nil => exact fun _ => rfl
  | cons c s ih =>
      intro before
      obtain ⟨hc, hs⟩ := List.forall_mem_cons.mp h
      rw [lowerAfter_cons, smallAt_of_isSmall hc, ih hs]
      rfl

/-- Putting a text in small letters neither brings digits in nor takes any out. -/
theorem forall_mem_lowerAfter_isDigit_iff :
    (∀ d ∈ lowerAfter before s, d.isDigit = false) ↔ ∀ c ∈ s, c.isDigit = false := by
  induction s generalizing before with
  | nil => simp [lowerAfter]
  | cons c s ih =>
      rw [lowerAfter_cons, List.forall_mem_append, List.forall_mem_cons, ih]
      refine and_congr_left fun _ => ⟨fun hall => ?_, fun hc d hd => ?_⟩
      · by_contra hdigit
        rw [Bool.not_eq_false] at hdigit
        rw [smallAt_of_isSmall (isSmall_of_isDigit hdigit), List.forall_mem_singleton] at hall
        simp [hdigit] at hall
      · exact isDigit_of_mem_smallAt hd hc

/-- A first digit stays the first character, and the characters of other small forms are no digits.
-/
theorem forall_mem_tail_lower_isDigit_iff :
    (∀ d ∈ (lower s).tail, d.isDigit = false) ↔ ∀ c ∈ s.tail, c.isDigit = false := by
  cases s with
  | nil => exact Iff.rfl
  | cons c s =>
      obtain ⟨first, letters, hsmall⟩ := List.exists_cons_of_ne_nil (smallAt_ne_nil [] c s)
      have hletters : ∀ d ∈ letters, d.isDigit = false := by
        intro d hd
        cases hdigit : c.isDigit with
        | true =>
            rw [smallAt_of_isSmall (isSmall_of_isDigit hdigit), List.cons.injEq] at hsmall
            rw [← hsmall.2] at hd
            cases hd
        | false =>
            have hmem : d ∈ smallAt [] c s := hsmall ▸ List.mem_cons_of_mem first hd
            exact isDigit_of_mem_smallAt hmem hdigit
      rw [lower, lowerAfter_cons, hsmall, List.cons_append, List.tail_cons, List.tail_cons,
        List.forall_mem_append, forall_mem_lowerAfter_isDigit_iff, and_iff_right hletters]

/-- The small form of a text ends with that of its last character. -/
theorem exists_lowerAfter_concat (before s : List Char) (c : Char) :
    ∃ front last, lowerAfter before (s ++ [c]) = front ++ smallAt last c [] := by
  induction s generalizing before with
  | nil => exact ⟨[], before, List.append_nil _⟩
  | cons d s ih =>
      obtain ⟨front, last, hlast⟩ := ih (d :: before)
      refine ⟨smallAt before d (s ++ [c]) ++ front, last, ?_⟩
      rw [List.cons_append, lowerAfter_cons, hlast, List.append_assoc]

/-- A text without blanks at its ends has none there in small letters. -/
theorem trim_lower (h : trim s = s) : trim (lower s) = lower s := by
  obtain ⟨hhead, hlast⟩ := trim_eq_self_iff.mp h
  refine trim_eq_self_iff.mpr ⟨?_, ?_⟩
  · cases s with
    | nil => exact nofun
    | cons c s =>
        intro d hd
        rw [lower, lowerAfter_cons, List.head?_append_of_ne_nil _ (smallAt_ne_nil [] c s)] at hd
        exact isBlank_of_mem_smallAt (List.mem_of_mem_head? hd) (hhead c rfl)
  · rcases List.eq_nil_or_concat s with rfl | ⟨front, c, rfl⟩
    · exact nofun
    · intro d hd
      obtain ⟨small, last, hsmall⟩ := exists_lowerAfter_concat [] front c
      rw [List.concat_eq_append, lower, hsmall,
        List.getLast?_append_of_ne_nil _ (smallAt_ne_nil last c [])] at hd
      exact isBlank_of_mem_smallAt (List.mem_of_getLast? hd) (hlast c (by simp))

end WebComponents.Text
