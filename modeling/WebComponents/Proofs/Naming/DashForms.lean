import Mathlib.Tactic.Common
import WebComponents.Proofs.Naming.Boundaries
import WebComponents.Proofs.Text.SmallForms

/-!
# Dash-case a second time

A digit starts a word whether or not a dash stands before it, so a text that is in dash-case already
is not always left as it is:

```text
text          dash-case      once more
MyButton      my-button      my-button
2Columns      2-columns      2-columns
h1            h-1            h--1
Grid12        grid-1-2       grid--1--2
```

What the first round makes is trimmed, without spaces, and in small letters
(`isDashForm_dashChars`).  A second round finds no capitals there and nothing to trim, and all it
does is to put one more dash before each digit but a leading one (`IsDashForm.dashChars_eq`).  So
the rounds come to rest exactly for texts without a digit after the first character
(`dashCase_dashCase`).
-/

namespace WebComponents.Naming

open Text

variable {s rest : List Char} {c : Char}

/-! ## Words between spaces -/

/-- The words between spaces, joined by dashes. -/
def dashSpaces (s : List Char) : List Char :=
  join '-' ((split (· == ' ') s).filter fun word => !word.isEmpty)

theorem dashChars_eq (s : List Char) : dashChars s = lower (dashSpaces (trim (spaceWords s))) :=
  rfl

theorem dashSpaces_space (s : List Char) : dashSpaces (' ' :: s) = dashSpaces s := by
  have hspace : ((' ' : Char) == ' ') = true := rfl
  rw [dashSpaces, split_cons_of_separates (· == ' ') hspace]
  rfl

/-- The first word goes on until the next space. -/
theorem dashSpaces_cons (hc : c ≠ ' ') {piece : List Char} {pieces : List (List Char)}
    (h : split (· == ' ') s = piece :: pieces) :
    dashSpaces (c :: s) =
      c :: piece ++ (pieces.filter fun word => !word.isEmpty).flatMap fun word => '-' :: word := by
  obtain ⟨first, more, hsplit, hcons⟩ := exists_split_cons (· == ' ') (by simpa using hc) s
  rw [h, List.cons.injEq] at hsplit
  rw [dashSpaces, hcons, ← hsplit.1, ← hsplit.2, List.filter_cons_of_pos rfl, join_cons]

theorem dashSpaces_suffix_cons (c : Char) (s : List Char) :
    dashSpaces s <:+ dashSpaces (c :: s) := by
  by_cases hc : c = ' '
  · have hsame : dashSpaces (c :: s) = dashSpaces s := by rw [hc, dashSpaces_space]
    exact ⟨[], hsame.symm⟩
  · obtain ⟨piece, pieces, hsplit⟩ := List.exists_cons_of_ne_nil (split_ne_nil (· == ' ') s)
    rw [dashSpaces_cons hc hsplit, dashSpaces, hsplit]
    cases piece with
    | nil =>
        rw [List.filter_cons_of_neg (by simp)]
        -- the next word gets a dash in front, unless there is none
        cases pieces.filter fun word => !word.isEmpty with
        | nil => exact List.nil_suffix
        | cons word words =>
            rw [join_cons, List.flatMap_cons]
            exact ⟨[c, '-'], rfl⟩
    | cons first word =>
        rw [List.filter_cons_of_pos rfl, join_cons]
        exact List.suffix_cons c _

theorem getLast?_dashSpaces_concat (hc : c ≠ ' ') (s : List Char) :
    (dashSpaces (s ++ [c])).getLast? = some c := by
  have hsuffix : dashSpaces [c] <:+ dashSpaces (s ++ [c]) := by
    induction s with
    | nil => exact List.suffix_rfl
    | cons d s ih => exact ih.trans (dashSpaces_suffix_cons d (s ++ [c]))
  rw [dashSpaces_cons hc rfl] at hsuffix
  obtain ⟨front, hfront⟩ := hsuffix
  rw [← hfront]
  exact List.getLast?_concat

theorem space_notMem_dashSpaces (s : List Char) : ' ' ∉ dashSpaces s := by
  intro h
  rcases mem_join h with hdash | ⟨word, hword, hmem⟩
  · exact absurd hdash (by decide)
  · exact not_mem_of_mem_split (List.mem_of_mem_filter hword) hmem

theorem trim_dashSpaces (h : trim s = s) : trim (dashSpaces s) = dashSpaces s := by
  have hspace {d : Char} (hd : isBlank d = false) : d ≠ ' ' := by
    rintro rfl
    exact absurd hd (by decide)
  obtain ⟨hhead, hlast⟩ := trim_eq_self_iff.mp h
  refine trim_eq_self_iff.mpr ⟨?_, ?_⟩
  · cases s with
    | nil => exact nofun
    | cons c s =>
        have hc : isBlank c = false := hhead c rfl
        obtain ⟨piece, pieces, hsplit⟩ := List.exists_cons_of_ne_nil (split_ne_nil (· == ' ') s)
        rw [dashSpaces_cons (hspace hc) hsplit]
        simpa using hc
  · rcases List.eq_nil_or_concat s with rfl | ⟨front, c, rfl⟩
    · exact nofun
    · have hc : isBlank c = false := hlast c (by simp)
      rw [List.concat_eq_append, getLast?_dashSpaces_concat (hspace hc)]
      simpa using hc

/-- After the first character the digits are those of the text. -/
theorem forall_mem_tail_dashSpaces_isDigit_iff (hc : c ≠ ' ') (s : List Char) :
    (∀ d ∈ (dashSpaces (c :: s)).tail, d.isDigit = false) ↔ ∀ d ∈ s, d.isDigit = false := by
  have hwords : (∀ word ∈ split (· == ' ') s, ∀ d ∈ word, d.isDigit = false) ↔
      ∀ d ∈ s, d.isDigit = false := by
    rw [forall_mem_split_iff]
    refine forall₂_congr fun d _ => ⟨fun h => ?_, fun h _ => h⟩
    cases hspace : d == ' ' with
    | true =>
        rw [beq_iff_eq.mp hspace]
        rfl
    | false => exact h hspace
  obtain ⟨piece, pieces, hsplit⟩ := List.exists_cons_of_ne_nil (split_ne_nil (· == ' ') s)
  rw [← hwords, hsplit, dashSpaces_cons hc hsplit, List.cons_append, List.tail_cons,
    List.forall_mem_append, List.forall_mem_cons, List.forall_mem_flatMap]
  refine and_congr_right fun _ => ⟨fun h word hword d hd => ?_, fun h word hword => ?_⟩
  · have hne : word ≠ [] := List.ne_nil_of_mem hd
    have hkept : word ∈ pieces.filter fun word => !word.isEmpty :=
      List.mem_filter.mpr ⟨hword, by simpa using hne⟩
    exact h word hkept d (List.mem_cons_of_mem _ hd)
  · exact List.forall_mem_cons.mpr ⟨rfl, h word (List.mem_of_mem_filter hword)⟩

theorem forall_mem_spaceWords_isDigit_iff :
    (∀ d ∈ spaceWords s, d.isDigit = false) ↔ ∀ c ∈ s, c.isDigit = false := by
  have hspace : (' ' : Char).isDigit = false := rfl
  rw [spaceWords, List.forall_mem_flatMap]
  refine forall₂_congr fun c _ => ?_
  split <;> simp [hspace]

/-! ## Trimming and spacing -/

/-- The first character of a trimmed text stays the first one, whether or not a space was put before
it. -/
theorem trim_spaceWords_of_trim (h : trim s = c :: rest) :
    trim (spaceWords s) = c :: spaceWords rest := by
  have hfirst : ∀ d ∈ (trim (spaceWords s)).head?, d ≠ ' ' := by
    rintro d hd rfl
    exact absurd (isBlank_head?_trim _ _ hd) (by decide)
  have hc : c ≠ ' ' := by
    rintro rfl
    exact absurd (isBlank_head?_trim s ' ' (by rw [h]; rfl)) (by decide)
  have hspaced := spaceWords_trim s
  rw [h, spaceWords_cons] at hspaced
  cases hstarts : startsWord c with
  | true =>
      rw [if_pos hstarts] at hspaced
      rcases hspaced with heq | heq
      · rw [← heq] at hfirst
        exact absurd rfl (hfirst ' ' rfl)
      · exact (List.cons.inj heq).2.symm
  | false =>
      rw [if_neg (by simp [hstarts])] at hspaced
      rcases hspaced with heq | heq
      · exact heq.symm
      · exact absurd (List.cons.inj heq).1 hc

theorem trim_spaceWords_of_trim_eq_nil (h : trim s = []) : trim (spaceWords s) = [] := by
  rcases spaceWords_trim s with heq | heq
  · rw [← heq, h]
    rfl
  · rw [h] at heq
    cases heq

/-! ## The form of a text in dash-case -/

/-- A text in small letters, without spaces, and without blanks at its ends. -/
structure IsDashForm (s : List Char) : Prop where
  isSmall : ∀ c ∈ s, IsSmall c
  space_notMem : ' ' ∉ s
  trim_eq : trim s = s

theorem isDashForm_dashChars (s : List Char) : IsDashForm (dashChars s) where
  isSmall _ h := isSmall_of_mem_lower h
  space_notMem h := space_notMem_dashSpaces _ (mem_of_mem_lower_of_isBlank h (by decide))
  trim_eq := trim_lower (trim_dashSpaces (trim_trim _))

/-- The text with a dash before each digit but a leading one. -/
def dashDigits : List Char → List Char
  | [] => []
  | first :: rest => first :: rest.flatMap fun c => if c.isDigit then ['-', c] else [c]

theorem dashDigits_eq_self_iff : dashDigits s = s ↔ ∀ c ∈ s.tail, c.isDigit = false := by
  cases s with
  | nil => simp [dashDigits]
  | cons first s =>
      rw [dashDigits, List.cons_inj_right, List.tail_cons]
      induction s with
      | nil => simp
      | cons c s ih =>
          rw [List.flatMap_cons, List.forall_mem_cons]
          cases hdigit : c.isDigit with
          | true =>
              have hdash : '-' ≠ c := by
                rintro rfl
                exact absurd hdigit (by decide)
              simp [hdash]
          | false => simpa using ih

theorem isSmall_of_mem_dashDigits (h : ∀ c ∈ s, IsSmall c) : ∀ c ∈ dashDigits s, IsSmall c := by
  cases s with
  | nil => exact h
  | cons first s =>
      obtain ⟨hfirst, hs⟩ := List.forall_mem_cons.mp h
      rw [dashDigits, List.forall_mem_cons, List.forall_mem_flatMap]
      refine ⟨hfirst, fun c hc => ?_⟩
      split
      · exact List.forall_mem_cons.mpr ⟨by decide, List.forall_mem_singleton.mpr (hs c hc)⟩
      · exact List.forall_mem_singleton.mpr (hs c hc)

/-- In small letters the only characters that start a word are digits. -/
theorem map_spaceWords_of_isSmall (h : ∀ c ∈ s, IsSmall c) (hspace : ' ' ∉ s) :
    (spaceWords s).map (fun c => if c = ' ' then '-' else c) =
      s.flatMap fun c => if c.isDigit then ['-', c] else [c] := by
  rw [spaceWords, List.map_flatMap]
  apply List.flatMap_congr
  intro c hc
  have hne : c ≠ ' ' := fun heq => hspace (heq ▸ hc)
  rw [startsWord, isUpper_of_isSmall (h c hc), Bool.false_or]
  split <;> simp [hne]

/-- A second round finds a word at each digit, and no other. -/
theorem IsDashForm.dashChars_eq (h : IsDashForm s) : dashChars s = dashDigits s := by
  cases s with
  | nil => rfl
  | cons c s =>
      have hs : ∀ d ∈ s, IsSmall d := fun d hd => h.isSmall d (List.mem_cons_of_mem c hd)
      obtain ⟨hc, hspace⟩ := not_or.mp (mt List.mem_cons.mpr h.space_notMem)
      have hwords : (split (· == ' ') (c :: spaceWords s)).filter (fun word => !word.isEmpty) =
          split (· == ' ') (c :: spaceWords s) := by
        apply List.filter_eq_self.mpr
        intro word hword
        simpa using ne_nil_of_mem_split_spaced (Ne.symm hc) hspace word hword
      calc dashChars (c :: s)
          = lower (join '-' (split (· == ' ') (c :: spaceWords s))) := by
            rw [dashChars_eq, dashSpaces, trim_spaceWords_of_trim h.trim_eq, hwords]
        _ = lower (c :: (spaceWords s).map fun d => if d = ' ' then '-' else d) := by
            rw [join_split_eq_map, List.map_cons, if_neg (Ne.symm hc)]
        _ = lower (dashDigits (c :: s)) := by
            rw [map_spaceWords_of_isSmall hs hspace, dashDigits]
        _ = dashDigits (c :: s) := lower_of_isSmall (isSmall_of_mem_dashDigits h.isSmall)

/-! ## Two rounds -/

/-- Dash-case has digits after its first character exactly if the trimmed text has. -/
theorem forall_mem_tail_dashChars_isDigit_iff (s : List Char) :
    (∀ d ∈ (dashChars s).tail, d.isDigit = false) ↔ ∀ c ∈ (trim s).tail, c.isDigit = false := by
  rw [dashChars_eq, forall_mem_tail_lower_isDigit_iff]
  cases htrim : trim s with
  | nil =>
      rw [trim_spaceWords_of_trim_eq_nil htrim]
      exact Iff.rfl
  | cons c rest =>
      have hc : c ≠ ' ' := by
        rintro rfl
        exact absurd (isBlank_head?_trim s ' ' (by rw [htrim]; rfl)) (by decide)
      rw [trim_spaceWords_of_trim htrim, forall_mem_tail_dashSpaces_isDigit_iff hc,
        forall_mem_spaceWords_isDigit_iff, List.tail_cons]

/-- **Dash-case a second time.**  A second round puts one more dash before each digit but a leading
one, and changes nothing else.  So it leaves the text as it is exactly if no digit stands after the
first character of the trimmed text. -/
theorem dashCase_dashCase (s : String) :
    dashCase (dashCase s) = String.ofList (dashDigits (dashCase s).toList) ∧
      (dashCase (dashCase s) = dashCase s ↔ ∀ c ∈ (trim s.toList).tail, c.isDigit = false) := by
  have hagain : dashChars (dashChars s.toList) = dashDigits (dashChars s.toList) :=
    (isDashForm_dashChars s.toList).dashChars_eq
  have hsecond : dashCase (dashCase s) = String.ofList (dashDigits (dashCase s).toList) := by
    rw [dashCase, dashCase, String.toList_ofList, hagain]
  refine ⟨hsecond, ?_⟩
  rw [hsecond, dashCase, String.toList_ofList, String.ofList_inj, dashDigits_eq_self_iff,
    forall_mem_tail_dashChars_isDigit_iff]

/-- Not every text is left as it is by a second round. -/
theorem not_dashCase_dashCase_heading : ¬ ∀ s : String, dashCase (dashCase s) = dashCase s := by
  intro hlaw
  have hfirst : dashCase "h1" = "h-1" := by decide
  have hsecond : dashCase "h-1" = "h--1" := by decide
  have hsame := hlaw "h1"
  rw [hfirst, hsecond] at hsame
  exact absurd hsame (by decide)

end WebComponents.Naming
