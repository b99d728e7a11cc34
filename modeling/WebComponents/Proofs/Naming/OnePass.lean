import WebComponents.Proofs.Naming.VariableWords

/-!
# Variable names in one pass

A name is made from a text by going through it once.  What is written for a character depends only
on where the pass stands: nothing is written yet, something other than a word's character came last,
or a word goes on.

```text
position   character read       written           then
first      between words                          first
first      letter, digit        small, or _digit  inside
apart      between words                          apart
apart      letter, digit        capital           inside
inside     between words                          apart
inside     letter, digit        as it is          inside
```

For a text of words and gaps, this pass writes the variable name (`variableName_eq_onePass`).  The
induction is on the text, and carries what the pass writes inside a word along with what it writes
at the start of one (`scan_eq_words`).
-/

namespace WebComponents.Naming

open Text

/-! ## The pass -/

/-- Where a pass stands: before anything is written, after a gap, or after a word's character. -/
inductive Position where
  | first
  | apart
  | inside
  deriving DecidableEq, Repr

/-- What is written for a character of a word.  The first of all is a small letter, or a digit after
an underscore; one after a gap is a capital; and all others stay as they are. -/
def Position.write : Position → Char → List Char
  | .first, c => if c.isDigit then ['_', c] else [c.toLower]
  | .apart, c => [c.toUpper]
  | .inside, c => [c]

/-- The position after a gap. -/
def Position.skip : Position → Position
  | .first => .first
  | _ => .apart

/-- What a pass over the text writes. -/
def scan (separates : Char → Bool) : Position → List Char → List Char
  | _, [] => []
  | position, c :: rest =>
    if separates c then scan separates position.skip rest
    else position.write c ++ scan separates .inside rest

/-- The name that one pass makes: words are letters and digits, and all else lies between them. -/
def onePass (s : List Char) : List Char :=
  scan (fun c => !c.isAlphanum) .first s

variable {separates later : Char → Bool} {position : Position} {s rest specifier : List Char}
  {c : Char}

theorem scan_gap (h : separates c = true) (position : Position) (rest : List Char) :
    scan separates position (c :: rest) = scan separates position.skip rest :=
  if_pos h

theorem scan_word (h : separates c = false) (position : Position) (rest : List Char) :
    scan separates position (c :: rest) = position.write c ++ scan separates .inside rest :=
  if_neg (by simp [h])

theorem scan_congr (h : ∀ c ∈ s, separates c = later c) (position : Position) :
    scan separates position s = scan later position s := by
  induction s generalizing position with
  | nil => rfl
  | cons c s ih =>
      obtain ⟨hc, hs⟩ := List.forall_mem_cons.mp h
      rw [scan, scan, hc, ih hs, ih hs]

theorem Position.write_ne_nil (position : Position) (c : Char) : position.write c ≠ [] := by
  cases position with
  | first =>
      rw [write]
      split <;> exact List.cons_ne_nil _ _
  | apart => exact List.cons_ne_nil _ _
  | inside => exact List.cons_ne_nil _ _

/-- Nothing is written exactly if there is no word. -/
theorem scan_eq_nil_iff : scan separates position s = [] ↔ ∀ c ∈ s, separates c = true := by
  induction s generalizing position with
  | nil => simp [scan]
  | cons c s ih =>
      cases hc : separates c with
      | true => rw [scan_gap hc, ih, List.forall_mem_cons, and_iff_right hc]
      | false =>
          rw [scan_word hc]
          simp [position.write_ne_nil, hc]

/-! ## Gaps at the ends -/

theorem scan_dropWhile (h : ∀ c ∈ s, isBlank c = true → separates c = true) :
    scan separates .first (s.dropWhile isBlank) = scan separates .first s := by
  induction s with
  | nil => rfl
  | cons c s ih =>
      obtain ⟨hc, hs⟩ := List.forall_mem_cons.mp h
      by_cases hblank : isBlank c = true
      · rw [List.dropWhile_cons_of_pos hblank, ih hs, scan_gap (hc hblank), Position.skip]
      · rw [List.dropWhile_cons_of_neg hblank]

theorem scan_dropEndWhile (h : ∀ c ∈ s, isBlank c = true → separates c = true)
    (position : Position) :
    scan separates position (dropEndWhile isBlank s) = scan separates position s := by
  induction s generalizing position with
  | nil => rfl
  | cons c s ih =>
      obtain ⟨hc, hs⟩ := List.forall_mem_cons.mp h
      cases hblank : isBlank c with
      | true =>
          rw [dropEndWhile_cons_of_pos hblank]
          split
          · next hnil => rw [scan_gap (hc hblank), ← ih hs, hnil, scan, scan]
          · rw [scan_gap (hc hblank), scan_gap (hc hblank), ih hs]
      | false => rw [dropEndWhile_cons_of_neg hblank, scan, scan, ih hs, ih hs]

/-- Trimming changes nothing if blanks lie between words. -/
theorem scan_trim (h : ∀ c ∈ s, isBlank c = true → separates c = true) :
    scan separates .first (trim s) = scan separates .first s := by
  have hstart : ∀ c ∈ trimStart s, isBlank c = true → separates c = true :=
    fun c hc => h c ((List.dropWhile_suffix isBlank).mem hc)
  rw [trim, trimEnd, scan_dropEndWhile hstart, trimStart, scan_dropWhile h]

/-! ## Words and the pass -/

theorem startsWord_of_isGap (h : c.toNat < 128) (hgap : isGap c = true) : startsWord c = false := by
  revert hgap
  exact forall_ascii c h (by decide)

theorem toUpper_of_startsWord (h : startsWord c = true) : c.toUpper = c := by
  have hascii : startsWord c = true → c.toUpper = c :=
    forall_ascii c (toNat_lt_of_startsWord h) (by decide)
  exact hascii h

theorem toLower_of_not_startsWord (h : c.toNat < 128) (hstarts : startsWord c = false) :
    c.toLower = c := by
  revert hstarts
  exact forall_ascii c h (by decide)

/-- What the pass writes are the words of the spaced text, run together.  Inside a word the pass
goes on with the small letters of the first piece. -/
theorem scan_eq_words (h : IsAscii s) :
    scan isGap .apart s = (split isGap (spaceWords s)).flatMap titled ∧
      ∀ piece pieces, split isGap (spaceWords s) = piece :: pieces →
        scan isGap .inside s = piece.map Char.toLower ++ pieces.flatMap titled := by
  induction s with
  | nil =>
      refine ⟨rfl, fun piece pieces hsplit => ?_⟩
      cases hsplit
      rfl
  | cons c s ih =>
      obtain ⟨hc, hs⟩ := List.forall_mem_cons.mp h
      obtain ⟨hapart, hinside⟩ := ih hs
      cases hgap : isGap c with
      | true =>
          have hspaced : spaceWords (c :: s) = c :: spaceWords s := by
            rw [spaceWords_cons, startsWord_of_isGap hc hgap]
            rfl
          rw [scan_gap hgap, scan_gap hgap, hspaced, split_cons_of_separates _ hgap]
          refine ⟨hapart, fun piece pieces hsplit => ?_⟩
          cases hsplit
          exact hapart
      | false =>
          obtain ⟨piece, pieces, hsplit, hcons⟩ := exists_split_cons _ hgap (spaceWords s)
          rw [scan_word hgap, scan_word hgap, hinside piece pieces hsplit]
          cases hstarts : startsWord c with
          | true =>
              -- the space before the character ends a piece, so the character is a capital
              have hspace : isGap ' ' = true := by decide
              have hspaced : spaceWords (c :: s) = ' ' :: c :: spaceWords s := by
                rw [spaceWords_cons, hstarts]
                rfl
              rw [hspaced, split_cons_of_separates _ hspace, hcons]
              refine ⟨rfl, fun first more hfirst => ?_⟩
              cases hfirst
              change c :: (piece.map Char.toLower ++ pieces.flatMap titled) =
                c.toUpper :: (piece.map Char.toLower ++ pieces.flatMap titled)
              rw [toUpper_of_startsWord hstarts]
          | false =>
              have hspaced : spaceWords (c :: s) = c :: spaceWords s := by
                rw [spaceWords_cons, hstarts]
                rfl
              rw [hspaced, hcons]
              refine ⟨rfl, fun first more hfirst => ?_⟩
              cases hfirst
              change c :: (piece.map Char.toLower ++ pieces.flatMap titled) =
                c.toLower :: (piece.map Char.toLower ++ pieces.flatMap titled)
              rw [toLower_of_not_startsWord hc hstarts]

/-- The first character in small form, and an underscore before a digit. -/
theorem guardDigit_decapitalize_scan (h : IsAscii s) :
    guardDigit (decapitalize (scan isGap .apart s)) = scan isGap .first s := by
  induction s with
  | nil => rfl
  | cons c s ih =>
      obtain ⟨hc, hs⟩ := List.forall_mem_cons.mp h
      cases hgap : isGap c with
      | true =>
          rw [scan_gap hgap, scan_gap hgap]
          exact ih hs
      | false =>
          have hupper : c.toUpper.toNat < 128 := forall_ascii c hc (by decide)
          have hdigit : c.toLower.isDigit = c.isDigit := forall_ascii c hc (by decide)
          have hsame : c.isDigit = true → c.toLower = c := forall_ascii c hc (by decide)
          rw [scan_word hgap, scan_word hgap, Position.write, Position.write, List.singleton_append,
            decapitalize, lowerChar_of_ascii hupper, toLower_toUpper hc, List.singleton_append,
            guardDigit, hdigit]
          split
          · next hc => rw [hsame hc]; rfl
          · rfl

/-- The name of a variable is what one pass over the trimmed part writes, for any ASCII text. -/
theorem variableChars_eq_scan (h : IsAscii (moduleStem specifier)) :
    variableChars specifier = scan isGap .first (trim (moduleStem specifier)) := by
  have htrim : IsAscii (trim (moduleStem specifier)) := fun c hc => h c (mem_of_mem_trim hc)
  calc variableChars specifier
      = guardDigit (decapitalize ((split isGap (trim (spaceWords (moduleStem specifier)))).flatMap
          titled)) := by rw [variableChars_eq, pascalChars_dashed h]
    _ = guardDigit (decapitalize (scan isGap .apart (trim (moduleStem specifier)))) := by
        rw [flatMap_split_trim_spaceWords, (scan_eq_words htrim).1]
    _ = scan isGap .first (trim (moduleStem specifier)) := guardDigit_decapitalize_scan htrim

/-! ## Words and gaps only -/

theorem isGap_iff : isGap c = true ↔ c = ' ' ∨ c = '-' ∨ c ∈ moduleNameSeparators := by
  simp [isGap, isSeparator]

theorem toNat_lt_of_isGap (h : isGap c = true) : c.toNat < 128 := by
  have hseparators : IsAscii moduleNameSeparators := by decide
  rcases isGap_iff.mp h with rfl | rfl | hmem
  · decide
  · decide
  · exact hseparators c hmem

theorem isAlphanum_of_isGap (h : isGap c = true) : c.isAlphanum = false := by
  have hascii : isGap c = true → c.isAlphanum = false :=
    forall_ascii c (toNat_lt_of_isGap h) (by decide)
  exact hascii h

/-- **One pass.**  If the part before a query holds ASCII letters and digits, spaces, dashes and
listed separators only, one pass over it makes the name; and the name is empty exactly if that part
has no letter and no digit. -/
theorem variableName_eq_onePass {specifier : String}
    (h : ∀ c ∈ moduleStem specifier.toList,
      c.isAlphanum = true ∨ c = ' ' ∨ c = '-' ∨ c ∈ moduleNameSeparators) :
    variableName specifier = String.ofList (onePass (moduleStem specifier.toList)) ∧
      (variableName specifier = "" ↔
        ∀ c ∈ moduleStem specifier.toList, c.isAlphanum = false) := by
  have hgap : ∀ c ∈ moduleStem specifier.toList, isGap c = !c.isAlphanum := by
    intro c hc
    rcases h c hc with halnum | hgap
    · have hword : isGap c = false := by
        by_contra hgap
        simp [isAlphanum_of_isGap (by simpa using hgap)] at halnum
      rw [hword, halnum, Bool.not_true]
    · rw [isGap_iff.mpr hgap, isAlphanum_of_isGap (isGap_iff.mpr hgap), Bool.not_false]
  have hascii : IsAscii (moduleStem specifier.toList) := by
    intro c hc
    rcases h c hc with halnum | hgap
    · exact toNat_lt_of_isAlphanum halnum
    · exact toNat_lt_of_isGap (isGap_iff.mpr hgap)
  have hblank : ∀ c ∈ moduleStem specifier.toList, isBlank c = true → isGap c = true := by
    intro c hc hblank
    have hword : isBlank c = true → c.isAlphanum = false :=
      forall_ascii c (hascii c hc) (by decide)
    rw [hgap c hc, hword hblank, Bool.not_false]
  have hname : variableName specifier = String.ofList (onePass (moduleStem specifier.toList)) := by
    rw [variableName, variableChars_eq_scan hascii, scan_trim hblank, scan_congr hgap, onePass]
  refine ⟨hname, ?_⟩
  rw [hname, String.ofList_eq_empty_iff, onePass, scan_eq_nil_iff]
  simp

/-- Gaps of several kinds, capitals and digits, and a query. -/
theorem variableName_eq_onePass_mixed :
    (∀ c ∈ moduleStem " ./2 my-HTMLview_3d?raw=é".toList,
      c.isAlphanum = true ∨ c = ' ' ∨ c = '-' ∨ c ∈ moduleNameSeparators) ∧
    variableName " ./2 my-HTMLview_3d?raw=é" = "_2MyHTMLview3d" := by
  have hall : (moduleStem " ./2 my-HTMLview_3d?raw=é".toList).all fun c =>
      c.isAlphanum = true ∨ c = ' ' ∨ c = '-' ∨ c ∈ moduleNameSeparators := by decide
  have hchars : ∀ c ∈ moduleStem " ./2 my-HTMLview_3d?raw=é".toList,
      c.isAlphanum = true ∨ c = ' ' ∨ c = '-' ∨ c ∈ moduleNameSeparators :=
    fun c hc => of_decide_eq_true (List.all_eq_true.mp hall c hc)
  refine ⟨hchars, (variableName_eq_onePass hchars).1.trans ?_⟩
  decide

end WebComponents.Naming
