import Mathlib.Tactic.Common
import WebComponents.Naming
import WebComponents.Proofs.Text.Ascii
import WebComponents.Proofs.Text.Trimming

/-!
# The words of a variable name

A variable for a module gets its name in several rounds.  The part before a query is spaced at
capitals and digits, trimmed, cut at spaces and joined again by dashes; the listed separators become
dashes as well; the text is cut at dashes, and each piece gets a capital.  Between the rounds it is
put in small letters:

```text
./my-styleSheet.css?raw
./my-style Sheet.css        spaced
./my-style-sheet.css        words at spaces, joined by dashes
--my-style-sheet-css        separators replaced
MyStyleSheetCss             pieces with capitals
myStyleSheetCss             first letter
```

On ASCII texts all this is one cut.  The words of the name are the pieces of the spaced text between
spaces, dashes and separators, and each is written with a capital and small letters after it
(`pascalChars_dashed`).  It makes no difference whether blanks are trimmed before or after the text
is spaced (`flatMap_split_trim_spaceWords`).
-/

namespace WebComponents.Naming

open Text

/-! ## Parts and words -/

/-- The part of a module specifier from which a name is made. -/
def moduleStem (specifier : List Char) : List Char :=
  specifier.takeWhile fun c => !endsModuleName c

/-- A dash, or one of the listed separators. -/
def isSeparator (c : Char) : Bool :=
  c == '-' || moduleNameSeparators.contains c

/-- A character between words. -/
def isGap (c : Char) : Bool :=
  c == ' ' || isSeparator c

/-- The word with a capital in front and small letters after it. -/
def titled : List Char → List Char
  | [] => []
  | c :: rest => c.toUpper :: rest.map Char.toLower

/-- The character, with a dash in the place of a listed separator. -/
def dashed (c : Char) : Char :=
  if moduleNameSeparators.contains c then '-' else c

/-- The character in small form, with a dash in the place of a separator. -/
def smallDashed (c : Char) : Char :=
  if isSeparator c then '-' else c.toLower

variable {s rest stem specifier : List Char} {c : Char}

theorem variableChars_eq (specifier : List Char) :
    variableChars specifier = guardDigit (decapitalize (pascalChars
      (lower ((dashChars (moduleStem specifier)).map dashed)))) :=
  rfl

/-! ## ASCII through the rounds -/

theorem toNat_lt_of_startsWord (h : startsWord c = true) : c.toNat < 128 := by
  rw [startsWord, Bool.or_eq_true] at h
  exact toNat_lt_of_isAlphanum (isAlphanum_iff.mpr (h.imp_left Or.inl))

theorem isBlank_of_startsWord (h : startsWord c = true) : isBlank c = false := by
  have hascii : startsWord c = true → isBlank c = false :=
    forall_ascii c (toNat_lt_of_startsWord h) (by decide)
  exact hascii h

theorem mem_spaceWords (h : c ∈ spaceWords s) : c = ' ' ∨ c ∈ s := by
  obtain ⟨d, hd, hc⟩ := List.mem_flatMap.mp h
  split at hc
  · rcases List.mem_pair.mp hc with rfl | rfl
    · exact Or.inl rfl
    · exact Or.inr hd
  · rw [List.mem_singleton.mp hc]
    exact Or.inr hd

theorem isAscii_trim_spaceWords (h : IsAscii s) : IsAscii (trim (spaceWords s)) := by
  intro c hc
  rcases mem_spaceWords (mem_of_mem_trim hc) with rfl | hmem
  · decide
  · exact h c hmem

theorem isAscii_join {sep : Char} {pieces : List (List Char)} (hsep : sep.toNat < 128)
    (h : ∀ piece ∈ pieces, IsAscii piece) : IsAscii (join sep pieces) := by
  intro c hc
  rcases mem_join hc with rfl | ⟨piece, hpiece, hmem⟩
  · exact hsep
  · exact h piece hpiece c hmem

theorem isAscii_dashed (h : IsAscii s) : IsAscii (s.map dashed) := by
  intro c hc
  obtain ⟨d, hd, rfl⟩ := List.mem_map.mp hc
  rw [dashed]
  split
  · decide
  · exact h d hd

/-! ## One cut for two -/

theorem toLower_dashed_toLower (h : c.toNat < 128) :
    (dashed c.toLower).toLower = smallDashed c :=
  forall_ascii c h (by decide)

/-- The rounds of small letters and dashes are one round. -/
theorem lower_map_dashed_lower (h : IsAscii s) :
    lower ((lower s).map dashed) = s.map smallDashed := by
  rw [lower_of_isAscii h, lower_of_isAscii (isAscii_dashed (isAscii_map_toLower h)), List.map_map,
    List.map_map]
  exact List.map_congr_left fun c hc => toLower_dashed_toLower (h c hc)

theorem smallDashed_eq_dash (h : c.toNat < 128) : (smallDashed c == '-') = isSeparator c :=
  forall_ascii c h (by decide)

/-- A word between gaps has nothing to be replaced by a dash. -/
theorem capitalize_map_smallDashed (h : IsAscii s) (hgap : ∀ c ∈ s, isGap c = false) :
    capitalize (s.map smallDashed) = titled s := by
  have hsmall : ∀ c ∈ s, smallDashed c = c.toLower := by
    intro c hc
    obtain ⟨-, hseparator⟩ := Bool.or_eq_false_iff.mp (hgap c hc)
    rw [smallDashed, hseparator, if_neg Bool.false_ne_true]
  rw [List.map_congr_left hsmall]
  cases s with
  | nil => rfl
  | cons c s =>
      have hc : c.toNat < 128 := h c List.mem_cons_self
      rw [List.map_cons, capitalize, upperChar_of_ascii (toNat_toLower_lt hc), toUpper_toLower hc]
      rfl

theorem pascalChars_dashed (h : IsAscii stem) :
    pascalChars (lower ((dashChars stem).map dashed)) =
      (split isGap (trim (spaceWords stem))).flatMap titled := by
  set spaced := trim (spaceWords stem) with hspaced
  set joined := join '-' ((split (· == ' ') spaced).filter fun word => !word.isEmpty) with hjoined
  have hspacedAscii : IsAscii spaced := isAscii_trim_spaceWords h
  have hjoinedAscii : IsAscii joined := by
    apply isAscii_join
    · decide
    · intro piece hpiece c hc
      exact hspacedAscii c (mem_of_mem_split (List.mem_of_mem_filter hpiece) hc)
  have hdash : ∀ c ∈ joined, (smallDashed c == '-') = isSeparator c :=
    fun c hc => smallDashed_eq_dash (hjoinedAscii c hc)
  calc pascalChars (lower ((dashChars stem).map dashed))
      = (split (· == '-') (lower ((lower joined).map dashed))).flatMap capitalize := rfl
    _ = (split (· == '-') (joined.map smallDashed)).flatMap capitalize := by
        rw [lower_map_dashed_lower hjoinedAscii]
    _ = (split isSeparator joined).flatMap fun word => capitalize (word.map smallDashed) := by
        rw [split_map, split_congr hdash, List.flatMap_map]
    _ = (split isGap spaced).flatMap fun word => capitalize (word.map smallDashed) :=
        flatMap_split_join_words rfl rfl spaced
    _ = (split isGap spaced).flatMap titled :=
        List.flatMap_congr fun word hword => capitalize_map_smallDashed
          (fun c hc => hspacedAscii c (mem_of_mem_split hword hc))
          (fun c hc => eq_false_of_mem_split hword hc)

/-! ## Spacing and trimming -/

theorem spaceWords_cons (c : Char) (s : List Char) :
    spaceWords (c :: s) = (if startsWord c then [' ', c] else [c]) ++ spaceWords s :=
  List.flatMap_cons

theorem spaceWords_eq_nil_iff : spaceWords s = [] ↔ s = [] := by
  cases s with
  | nil => simp [spaceWords]
  | cons c s =>
      rw [spaceWords_cons]
      split <;> simp

theorem trimEnd_spaceWords (s : List Char) : trimEnd (spaceWords s) = spaceWords (trimEnd s) := by
  unfold trimEnd
  induction s with
  | nil => rfl
  | cons c s ih =>
      rw [spaceWords_cons]
      cases hstarts : startsWord c with
      | true =>
          have hc := isBlank_of_startsWord hstarts
          have hspace : isBlank ' ' = true := by decide
          rw [if_pos rfl, dropEndWhile_cons_of_neg hc, spaceWords_cons, if_pos hstarts, ← ih]
          change dropEndWhile isBlank (' ' :: c :: spaceWords s) = _
          rw [dropEndWhile_cons_of_pos hspace, dropEndWhile_cons_of_neg hc,
            if_neg (List.cons_ne_nil _ _)]
          rfl
      | false =>
          rw [if_neg Bool.false_ne_true, List.singleton_append]
          cases hc : isBlank c with
          | false =>
              rw [dropEndWhile_cons_of_neg hc, dropEndWhile_cons_of_neg hc, spaceWords_cons,
                hstarts, if_neg Bool.false_ne_true, ih, List.singleton_append]
          | true =>
              rw [dropEndWhile_cons_of_pos hc, dropEndWhile_cons_of_pos hc, ih]
              by_cases hnil : dropEndWhile isBlank s = []
              · rw [if_pos (spaceWords_eq_nil_iff.mpr hnil), if_pos hnil]
                rfl
              · rw [if_neg (mt spaceWords_eq_nil_iff.mp hnil), if_neg hnil, spaceWords_cons,
                  hstarts, if_neg Bool.false_ne_true, List.singleton_append]

/-- A text that starts with a capital or a digit has a space in front after it is spaced. -/
theorem spaceWords_trimStart (s : List Char) :
    spaceWords (trimStart s) = trimStart (spaceWords s) ∨
      spaceWords (trimStart s) = ' ' :: trimStart (spaceWords s) := by
  unfold trimStart
  induction s with
  | nil => exact Or.inl rfl
  | cons c s ih =>
      cases hc : isBlank c with
      | true =>
          have hstarts : startsWord c = false := by
            by_contra hstarts
            simp [isBlank_of_startsWord (by simpa using hstarts)] at hc
          rw [List.dropWhile_cons_of_pos hc, spaceWords_cons, hstarts, if_neg Bool.false_ne_true,
            List.singleton_append, List.dropWhile_cons_of_pos hc]
          exact ih
      | false =>
          have hneg : ¬ isBlank c = true := by simp [hc]
          rw [List.dropWhile_cons_of_neg hneg, spaceWords_cons]
          cases hstarts : startsWord c with
          | true =>
              refine Or.inr ?_
              have hspace : isBlank ' ' = true := by decide
              change ' ' :: c :: spaceWords s = ' ' :: (' ' :: c :: spaceWords s).dropWhile isBlank
              rw [List.dropWhile_cons_of_pos hspace, List.dropWhile_cons_of_neg hneg]
          | false =>
              refine Or.inl ?_
              change c :: spaceWords s = (c :: spaceWords s).dropWhile isBlank
              rw [List.dropWhile_cons_of_neg hneg]

theorem spaceWords_trim (s : List Char) :
    spaceWords (trim s) = trim (spaceWords s) ∨
      spaceWords (trim s) = ' ' :: trim (spaceWords s) := by
  rw [trim, ← trimEnd_spaceWords, trim]
  rcases spaceWords_trimStart s with heq | heq
  · exact Or.inl (congrArg trimEnd heq)
  · have hspace : isBlank ' ' = true := by decide
    rw [heq]
    unfold trimEnd
    rw [dropEndWhile_cons_of_pos hspace]
    split
    · next hnil => exact Or.inl hnil.symm
    · exact Or.inr rfl

/-- A space in front makes no word, so trimming comes before spacing or after it. -/
theorem flatMap_split_trim_spaceWords (s : List Char) :
    (split isGap (trim (spaceWords s))).flatMap titled =
      (split isGap (spaceWords (trim s))).flatMap titled := by
  rcases spaceWords_trim s with heq | heq
  · rw [heq]
  · have hspace : isGap ' ' = true := by decide
    rw [heq, flatMap_split_cons rfl hspace]

end WebComponents.Naming
