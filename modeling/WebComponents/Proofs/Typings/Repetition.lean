import Mathlib.Data.List.Infix
import WebComponents.Proofs.Typings.Occurrences
import WebComponents.Proofs.Typings.Specifiers

/-!
# Redirecting twice

A redirected text has no import left, so redirecting it again changes nothing (`redirect_redirect`).
This depends on the specifier, since another one could make an import together with what stands
around it.  An import in the new text begins with an `f`, and there are four places to look for one:

```text
between the imports          the import has no other `f`, so all of it was there before
at the `from` of an import   `@` would stand where the specifier has its dot
in the specifier             its first quote would be the one after the specifier, which ends with
                             an `e`, but before the quote stands the `m` of `from` or a blank
in a gap, or at a quote      no `f` stands there
```

What is used of the specifier is `MakesNoImport`.  That of the typings begins with a dot and ends
with an `e` for all paths; that it has no quotes is an assumption on the paths, and only the third
place needs it.
-/

namespace WebComponents.Typings

open Text

variable {s t specifier : List Char}

/-! ## Texts in a row -/

/-- What is found in two texts in a row starts in the first one or is found in the second. -/
theorem exists_start_of_infix_append {pattern : List Char} (h : pattern <:+: s ++ t) :
    (∃ start, start ≠ [] ∧ start <:+ s ∧ pattern <+: start ++ t) ∨ pattern <:+: t := by
  induction s with
  | nil => exact Or.inr h
  | cons c s ih =>
      rcases List.infix_cons_iff.mp h with hstarts | hfound
      · exact Or.inl ⟨c :: s, List.cons_ne_nil _ _, List.suffix_rfl, hstarts⟩
      · rcases ih hfound with ⟨start, hne, hsuffix, hstarts⟩ | hrest
        · exact Or.inl ⟨start, hne, hsuffix.trans (List.suffix_cons c s), hstarts⟩
        · exact Or.inr hrest

/-- Two texts that are split at their first character with a property are split at the same
place. -/
theorem append_cons_inj_of_first {p : Char → Bool} {s' t' : List Char} {c c' : Char}
    (hs : ∀ a ∈ s, p a = false) (hs' : ∀ a ∈ s', p a = false) (hc : p c = true) (hc' : p c' = true)
    (h : s ++ c :: t = s' ++ c' :: t') : s = s' ∧ c = c' ∧ t = t' := by
  have hbefore {s t : List Char} {c : Char} (hs : ∀ a ∈ s, p a = false) (hc : p c = true) :
      (s ++ c :: t).takeWhile (fun a => !p a) = s := by
    rw [List.takeWhile_append_of_pos (by simpa using hs), List.takeWhile_cons_of_neg (by simp [hc]),
      List.append_nil]
  have heq : s = s' := by rw [← hbefore hs hc, h, hbefore hs' hc']
  subst heq
  rw [List.append_cancel_left_eq, List.cons.injEq] at h
  exact ⟨rfl, h⟩

/-- No import starts in a text without an `f`. -/
theorem infix_of_infix_append {found : FrameworkImport} (hs : 'f' ∉ s)
    (h : found.piece.chars <:+: s ++ t) : found.piece.chars <:+: t := by
  rcases exists_start_of_infix_append h with ⟨start, hne, hsuffix, hstarts⟩ | hrest
  · obtain ⟨tail, hchars, _⟩ := exists_chars_eq_cons found
    obtain ⟨c, start, rfl⟩ := List.exists_cons_of_ne_nil hne
    rw [hchars, List.cons_append, List.cons_prefix_cons] at hstarts
    exact absurd (hsuffix.mem (hstarts.1 ▸ List.mem_cons_self)) hs
  · exact hrest

/-! ## Specifiers that make no import -/

/-- The specifier begins with a dot, ends with an `e`, and has no quotes. -/
structure MakesNoImport (specifier : List Char) : Prop where
  head : specifier.head? = some '.'
  last : specifier.getLast? = some 'e'
  noQuotes : ∀ c ∈ specifier, isQuote c = false

theorem isQuote_eq_false_of_isBlank {c : Char} (h : isBlank c = true) : isQuote c = false := by
  by_contra hquote
  rw [isBlank_eq_false_of_isQuote (by simpa using hquote)] at h
  cases h

theorem chars_append_eq (found : FrameworkImport) (t : List Char) :
    found.piece.chars ++ t = fromChars ++ (found.gap ++ found.opening ::
      (specifierChars found.internal ++ found.closing :: t)) := by
  simp [FrameworkImport.piece, Piece.chars, Piece.charsWith]

theorem charsWith_append_eq (found : FrameworkImport) (specifier t : List Char) :
    found.piece.charsWith (fun _ => specifier) ++ t = fromChars ++ (found.gap ++ found.opening ::
      (specifier ++ found.closing :: t)) := by
  simp [FrameworkImport.piece, Piece.charsWith]

theorem specifierChars_append_ne (h : specifier.head? = some '.') {internal : Bool}
    {rest : List Char} : specifierChars internal ++ rest ≠ specifier ++ t := by
  intro heq
  have hpackage : (specifierChars internal ++ rest).head? = some '@' := rfl
  rw [heq, List.head?_append, h] at hpackage
  cases hpackage

/-- No import starts where a redirected one does. -/
theorem MakesNoImport.not_prefix (h : MakesNoImport specifier) (found other : FrameworkImport)
    (t : List Char) :
    ¬ other.piece.chars <+: found.piece.charsWith (fun _ => specifier) ++ t := by
  rintro ⟨rest, hstarts⟩
  rw [chars_append_eq, charsWith_append_eq, List.append_cancel_left_eq] at hstarts
  have hblank (found : FrameworkImport) : ∀ c ∈ found.gap, (!isBlank c) = false := by
    simpa using found.gap_blank
  have hquote {c : Char} (hc : c = '\'' ∨ c = '"') : (!isBlank c) = true := by
    simp [isBlank_eq_false_of_isQuote (isQuote_iff.mpr hc)]
  obtain ⟨_, _, hspecifier⟩ := append_cons_inj_of_first (p := fun c => !isBlank c) (hblank other)
    (hblank found) (hquote other.opening_quote) (hquote found.opening_quote) hstarts
  exact specifierChars_append_ne h.head hspecifier

/-- No import starts in the specifier. -/
theorem MakesNoImport.not_prefix_of_suffix (h : MakesNoImport specifier) {start : List Char}
    (hne : start ≠ []) (hsuffix : start <:+ specifier) (found : FrameworkImport) {closing : Char}
    (hclosing : closing = '\'' ∨ closing = '"') (t : List Char) :
    ¬ found.piece.chars <+: start ++ closing :: t := by
  rintro ⟨rest, hstarts⟩
  rw [chars_append_eq, ← List.append_assoc] at hstarts
  have hfrom : ∀ c ∈ fromChars, isQuote c = false := by simp [fromChars, isQuote]
  have hgap : ∀ c ∈ fromChars ++ found.gap, isQuote c = false := fun c hc =>
    (List.mem_append.mp hc).elim (hfrom c) fun hblank =>
      isQuote_eq_false_of_isBlank (found.gap_blank c hblank)
  obtain ⟨rfl, _, _⟩ := append_cons_inj_of_first hgap
    (fun c hc => h.noQuotes c (hsuffix.mem hc)) (isQuote_iff.mpr found.opening_quote)
    (isQuote_iff.mpr hclosing) hstarts
  obtain ⟨before, rfl⟩ := hsuffix
  have hlast := h.last
  rw [List.getLast?_append_of_ne_nil _ hne] at hlast
  rcases List.mem_append.mp (List.mem_of_getLast? hlast) with hfrom | hblank
  · exact absurd hfrom (by decide)
  · exact absurd (found.gap_blank 'e' hblank) (by decide)

/-- A redirected import makes none with what comes after it. -/
theorem MakesNoImport.not_hasImport_append (h : MakesNoImport specifier) (found : FrameworkImport)
    (ht : ¬ HasImport t) :
    ¬ HasImport (found.piece.charsWith (fun _ => specifier) ++ t) := by
  rintro ⟨other, hother⟩
  obtain ⟨hgap, hopening, hclosing⟩ := found.f_notMem
  have hnot := h.not_prefix found other t
  rw [charsWith_append_eq] at hother hnot
  rcases List.infix_cons_iff.mp hother with hstarts | hother
  · exact hnot hstarts
  · have hbefore : 'f' ∉ ['r', 'o', 'm'] ++ found.gap ++ [found.opening] := by
      simp [hgap, hopening]
    have hspecifier : other.piece.chars <:+: specifier ++ found.closing :: t :=
      infix_of_infix_append hbefore (by simpa using hother)
    rcases exists_start_of_infix_append hspecifier with ⟨start, hne, hsuffix, hstarts⟩ | hclosed
    · exact h.not_prefix_of_suffix hne hsuffix other found.closing_quote t hstarts
    · have hquote : 'f' ∉ [found.closing] := by simpa using hclosing
      exact ht ⟨other, infix_of_infix_append hquote hclosed⟩

/-! ## Redirected texts -/

theorem redirected_of_framework?_eq_none {c : Char} (h : framework? (c :: s) = none) :
    redirected specifier (c :: s) = c :: redirected specifier s := by
  rw [redirected, pieces_of_framework?_eq_none h]
  rfl

theorem redirected_append (found : FrameworkImport) (s : List Char) :
    redirected specifier (found.piece.chars ++ s) =
      found.piece.charsWith (fun _ => specifier) ++ redirected specifier s :=
  redirected_append_append specifier found [] s

/-- A specifier that begins with a dot changes every text that has an import. -/
theorem redirected_eq_self_iff (h : specifier.head? = some '.') :
    redirected specifier s = s ↔ ¬ HasImport s := by
  refine ⟨fun hsame => ?_, redirected_of_not_hasImport specifier⟩
  induction s using pieces_induction with
  | nil => exact not_hasImport_nil
  | other c s hnone ih =>
      rw [redirected_of_framework?_eq_none hnone, List.cons.injEq] at hsame
      rw [hasImport_cons_iff hnone]
      exact ih hsame.2
  | framework found s ih =>
      rw [redirected_append, charsWith_append_eq, chars_append_eq, List.append_cancel_left_eq,
        List.append_cancel_left_eq, List.cons.injEq] at hsame
      exact absurd hsame.2.symm (specifierChars_append_ne h)

/-- What a redirected text begins with, up to its first `f`, the text began with before. -/
theorem prefix_of_prefix_redirected {start : List Char} (hstart : 'f' ∉ start)
    (h : start <+: redirected specifier s) : start <+: s := by
  induction s using pieces_induction generalizing start with
  | nil => exact h
  | other c s hnone ih =>
      rw [redirected_of_framework?_eq_none hnone] at h
      cases start with
      | nil => exact List.nil_prefix
      | cons a start =>
          obtain ⟨rfl, hrest⟩ := List.cons_prefix_cons.mp h
          rw [List.mem_cons, not_or] at hstart
          exact List.cons_prefix_cons.mpr ⟨rfl, ih hstart.2 hrest⟩
  | framework found s ih =>
      cases start with
      | nil => exact List.nil_prefix
      | cons a start =>
          rw [redirected_append, charsWith_append_eq] at h
          obtain ⟨rfl, _⟩ := List.cons_prefix_cons.mp h
          exact absurd List.mem_cons_self hstart

/-- A redirected text has no import. -/
theorem MakesNoImport.not_hasImport_redirected (h : MakesNoImport specifier) (s : List Char) :
    ¬ HasImport (redirected specifier s) := by
  induction s using pieces_induction with
  | nil => exact not_hasImport_nil
  | other c s hnone ih =>
      rw [redirected_of_framework?_eq_none hnone]
      rintro ⟨found, hfound⟩
      rcases List.infix_cons_iff.mp hfound with hstarts | hrest
      · -- the text began with the same import, and it would have been found
        obtain ⟨tail, hchars, htail⟩ := exists_chars_eq_cons found
        have hbefore : found.piece.chars <+: c :: s := by
          rw [hchars] at hstarts ⊢
          obtain ⟨hc, hstarts⟩ := List.cons_prefix_cons.mp hstarts
          exact List.cons_prefix_cons.mpr ⟨hc, prefix_of_prefix_redirected htail hstarts⟩
        obtain ⟨rest, hrest⟩ := hbefore
        rw [← hrest, framework?_append] at hnone
        cases hnone
      · exact ih ⟨found, hrest⟩
  | framework found s ih =>
      rw [redirected_append]
      exact h.not_hasImport_append found ih

/-! ## The specifier of the typings -/

theorem head?_typingsSpecifier (typesDir file : Path) :
    (typingsSpecifier typesDir file).toList.head? = some '.' := by
  rw [typingsSpecifier_eq]
  split
  · assumption
  · simp

theorem getLast?_typingsSpecifier (typesDir file : Path) :
    (typingsSpecifier typesDir file).toList.getLast? = some 'e' := by
  have hway : (wayToTypings typesDir file).slashed.toList.getLast? = some 'e' := by
    have hname : typingsName.toList ≠ [] := by decide
    rw [toList_slashed_none, wayToTypings, Path.toList_join (by decide), List.getLast?_map,
      List.getLast?_append_of_ne_nil _ hname]
    decide
  rw [typingsSpecifier_eq]
  split
  · exact hway
  · have hne : (wayToTypings typesDir file).slashed.toList ≠ [] := by
      rintro hnil
      rw [hnil] at hway
      cases hway
    rw [String.toList_append, List.getLast?_append_of_ne_nil _ hne, hway]

/-- The text has no quote in it. -/
def HasNoQuotes (text : String) : Prop :=
  ∀ c ∈ text.toList, isQuote c = false

instance : DecidablePred HasNoQuotes := fun text =>
  List.decidableBAll (fun c => isQuote c = false) text.toList

variable {typesDir file : Path}

theorem not_hasImport_redirect (h : HasNoQuotes (typingsSpecifier typesDir file))
    (content : String) : ¬ HasImport (redirect typesDir file content).toList := by
  rw [toList_redirect]
  exact MakesNoImport.not_hasImport_redirected
    ⟨head?_typingsSpecifier typesDir file, getLast?_typingsSpecifier typesDir file, h⟩ _

/-- A text stays exactly if it has no import. -/
theorem redirect_eq_self_iff (typesDir file : Path) (content : String) :
    redirect typesDir file content = content ↔ ¬ HasImport content.toList := by
  rw [← String.toList_inj, toList_redirect]
  exact redirected_eq_self_iff (head?_typingsSpecifier typesDir file)

/-- A redirected text stays as it is when it is redirected again, for whichever file. -/
theorem redirect_redirect (h : HasNoQuotes (typingsSpecifier typesDir file))
    (content : String) (otherDir other : Path) :
    redirect otherDir other (redirect typesDir file content) = redirect typesDir file content :=
  (redirect_eq_self_iff otherDir other _).mpr (not_hasImport_redirect h content)

end WebComponents.Typings
