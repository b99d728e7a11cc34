import Mathlib.Data.List.Infix
import WebComponents.Typings.Framework

/-!
# The imports in a declaration file

The pieces of a text spell it (`flatMap_chars_pieces`), and redirecting a text puts one specifier
into each import among its pieces and keeps all else (`toList_redirect`).  The first look for the
name of the package makes no difference: the name stands in every import (`package_infix_chars`), so
a text without it has none (`pieces_of_not_occursIn`).

An import is written down without the pieces as a `FrameworkImport`.  At the start of a text the
program finds an import exactly if the text begins with one (`framework?_append`,
`exists_import_of_framework?`), so a text is empty, begins with a character that begins no import,
or begins with an import (`pieces_induction`).
-/

namespace WebComponents.Typings

open Text

/-! ## Imports as they are written -/

/-- An import of the framework as it may stand in a text: the word `from`, a gap of blanks, and the
package or its internals between two quotes, which need not be alike. -/
structure FrameworkImport where
  gap : List Char
  opening : Char
  internal : Bool
  closing : Char
  gap_blank : ∀ c ∈ gap, isBlank c = true
  opening_quote : opening = '\'' ∨ opening = '"'
  closing_quote : closing = '\'' ∨ closing = '"'

namespace FrameworkImport

/-- What stands between the quotes. -/
def specifier (found : FrameworkImport) : String :=
  if found.internal then "@kiln/core/internal" else "@kiln/core"

/-- The import with another specifier between its quotes. -/
def textWith (found : FrameworkImport) (specifier : String) : String :=
  "from" ++ String.ofList found.gap ++ found.opening.toString ++ specifier ++
    found.closing.toString

/-- The import. -/
def text (found : FrameworkImport) : String :=
  found.textWith found.specifier

/-- The piece of a text that the import is. -/
def piece (found : FrameworkImport) : Piece :=
  .framework found.gap found.opening found.internal found.closing

theorem toList_textWith (found : FrameworkImport) (specifier : String) :
    (found.textWith specifier).toList = found.piece.charsWith fun _ => specifier.toList := by
  simp [textWith, piece, Piece.charsWith, fromChars]

theorem toList_text (found : FrameworkImport) : found.text.toList = found.piece.chars := by
  have hspecifier : found.specifier.toList = specifierChars found.internal := by
    unfold specifier
    cases found.internal <;> decide
  rw [text, toList_textWith, hspecifier]
  rfl

end FrameworkImport

theorem isQuote_iff {c : Char} : isQuote c = true ↔ c = '\'' ∨ c = '"' := by
  simp [isQuote]

theorem isBlank_eq_false_of_isQuote {c : Char} (h : isQuote c = true) : isBlank c = false := by
  rcases isQuote_iff.mp h with rfl | rfl <;> rfl

variable {s rest start : List Char} {piece : Piece}

/-! ## An import at the start of a text -/

theorem after?_append (start rest : List Char) : after? start (start ++ rest) = some rest := by
  rw [after?, if_pos (List.isPrefixOf_iff_prefix.mpr (List.prefix_append start rest)),
    List.drop_left]

theorem eq_append_of_after? (h : after? start s = some rest) : s = start ++ rest := by
  unfold after? at h
  split at h
  · rename_i hstart
    cases h
    exact (List.prefix_iff_eq_append.mp (List.isPrefixOf_iff_prefix.mp hstart)).symm
  · cases h

/-- What is found at the start of a text is an import that the text begins with. -/
theorem exists_import_of_framework? (h : framework? s = some piece) :
    ∃ (found : FrameworkImport) (rest : List Char),
      piece = found.piece ∧ s = found.piece.chars ++ rest := by
  unfold framework? at h
  obtain ⟨spaced, hspaced, h⟩ := Option.bind_eq_some_iff.mp h
  have hgap := List.takeWhile_append_dropWhile (p := isBlank) (l := spaced)
  have hblank : ∀ c ∈ spaced.takeWhile isBlank, isBlank c = true :=
    List.all_eq_true.mp List.all_takeWhile
  split at h
  · cases h
  · rename_i opening quoted hquoted
    split at h
    · rename_i hopening
      rw [isQuote_iff] at hopening
      obtain ⟨named, hnamed, h⟩ := Option.bind_eq_some_iff.mp h
      -- the text is put together again as far as it was read
      rw [eq_append_of_after? hspaced, ← hgap, hquoted, eq_append_of_after? hnamed]
      cases hinternal : after? internalChars named with
      | none =>
          simp only [hinternal] at h
          split at h
          · cases h
          · rename_i closing rest
            split at h
            · rename_i hclosing
              cases h
              exact ⟨⟨_, opening, false, closing, hblank, hopening, isQuote_iff.mp hclosing⟩, rest,
                rfl, by simp [FrameworkImport.piece, Piece.chars, Piece.charsWith, specifierChars]⟩
            · cases h
      | some inner =>
          simp only [hinternal] at h
          rw [eq_append_of_after? hinternal]
          split at h
          · cases h
          · rename_i closing rest
            split at h
            · rename_i hclosing
              cases h
              exact ⟨⟨_, opening, true, closing, hblank, hopening, isQuote_iff.mp hclosing⟩, rest,
                rfl, by simp [FrameworkImport.piece, Piece.chars, Piece.charsWith, specifierChars]⟩
            · cases h
    · cases h

/-- An import that a text begins with is found. -/
theorem framework?_append (found : FrameworkImport) (rest : List Char) :
    framework? (found.piece.chars ++ rest) = some found.piece := by
  have hopening := isQuote_iff.mpr found.opening_quote
  have hclosing := isQuote_iff.mpr found.closing_quote
  have hblank := isBlank_eq_false_of_isQuote hopening
  have htext : found.piece.chars ++ rest =
      fromChars ++ (found.gap ++ found.opening :: (frameworkPackage.toList ++
        ((if found.internal then internalChars else []) ++ found.closing :: rest))) := by
    simp [FrameworkImport.piece, Piece.chars, Piece.charsWith, specifierChars]
  rw [htext, framework?, after?_append]
  simp only [Option.bind_eq_bind, Option.bind_some]
  -- the gap ends at the quote
  rw [List.takeWhile_append_of_pos found.gap_blank, List.dropWhile_append_of_pos found.gap_blank,
    List.takeWhile_cons_of_neg (by simp [hblank]), List.dropWhile_cons_of_neg (by simp [hblank]),
    List.append_nil]
  simp only [hopening, if_true, after?_append, Option.bind_some]
  cases hinternal : found.internal with
  | false =>
      have hnone : after? internalChars (found.closing :: rest) = none := by
        rcases found.closing_quote with h | h <;> rw [h] <;> rfl
      simp [hnone, hclosing, FrameworkImport.piece, hinternal]
  | true => simp [after?_append, hclosing, FrameworkImport.piece, hinternal]

/-! ## Pieces -/

theorem piecesFrom_append (covered s : List Char) :
    piecesFrom covered.length (covered ++ s) = pieces s := by
  induction covered with
  | nil => rfl
  | cons c covered ih => exact ih

theorem pieces_append (found : FrameworkImport) (rest : List Char) :
    pieces (found.piece.chars ++ rest) = found.piece :: pieces rest := by
  have hfound := framework?_append found rest
  obtain ⟨tail, hchars⟩ : ∃ tail, found.piece.chars = 'f' :: tail := ⟨_, rfl⟩
  rw [hchars, List.cons_append] at hfound ⊢
  rw [pieces, piecesFrom, hfound]
  simp only [hchars, List.length_cons, Nat.add_sub_cancel]
  rw [piecesFrom_append]

theorem pieces_of_framework?_eq_none {c : Char} (h : framework? (c :: s) = none) :
    pieces (c :: s) = .other c :: pieces s := by
  rw [pieces, piecesFrom, h]
  rfl

/-- A text is empty, begins with a character that begins no import, or begins with an import. -/
theorem pieces_induction {motive : List Char → Prop} (s : List Char) (nil : motive [])
    (other : ∀ c s, framework? (c :: s) = none → motive s → motive (c :: s))
    (framework : ∀ (found : FrameworkImport) s, motive s → motive (found.piece.chars ++ s)) :
    motive s := by
  induction hlength : s.length using Nat.strongRecOn generalizing s with
  | ind n ih =>
      subst hlength
      cases s with
      | nil => exact nil
      | cons c s =>
          cases hpiece : framework? (c :: s) with
          | none => exact other c s hpiece (ih s.length (by simp) s rfl)
          | some piece =>
              obtain ⟨found, rest, _, hs⟩ := exists_import_of_framework? hpiece
              have hpositive : 0 < found.piece.chars.length := Nat.succ_pos _
              have hlength := congrArg List.length hs
              rw [List.length_append] at hlength
              rw [hs]
              exact framework found rest (ih rest.length (by omega) rest rfl)

/-- The pieces in order spell the text. -/
theorem flatMap_chars_pieces (s : List Char) : (pieces s).flatMap Piece.chars = s := by
  induction s using pieces_induction with
  | nil => rfl
  | other c s h ih =>
      rw [pieces_of_framework?_eq_none h, List.flatMap_cons, ih]
      rfl
  | framework found s ih => rw [pieces_append, List.flatMap_cons, ih]

theorem occursIn_iff (pattern s : List Char) : occursIn pattern s = true ↔ pattern <:+: s := by
  induction s with
  | nil => simp [occursIn]
  | cons c s ih =>
      rw [occursIn, Bool.or_eq_true, List.isPrefixOf_iff_prefix, ih, List.infix_cons_iff]

/-- The text has an import of the framework in it. -/
def HasImport (s : List Char) : Prop :=
  ∃ found : FrameworkImport, found.piece.chars <:+: s

theorem not_hasImport_nil : ¬ HasImport [] := by
  rintro ⟨found, hfound⟩
  cases List.infix_nil.mp hfound

/-- A character that begins no import adds none. -/
theorem hasImport_cons_iff {c : Char} (h : framework? (c :: s) = none) :
    HasImport (c :: s) ↔ HasImport s := by
  constructor
  · rintro ⟨found, hfound⟩
    rcases List.infix_cons_iff.mp hfound with ⟨rest, hstarts⟩ | hrest
    · rw [← hstarts, framework?_append] at h
      cases h
    · exact ⟨found, hrest⟩
  · rintro ⟨found, hfound⟩
    exact ⟨found, hfound.trans (List.suffix_cons c s).isInfix⟩

theorem pieces_of_not_hasImport (h : ¬ HasImport s) : pieces s = s.map .other := by
  induction s using pieces_induction with
  | nil => rfl
  | other c s hnone ih =>
      rw [hasImport_cons_iff hnone] at h
      rw [pieces_of_framework?_eq_none hnone, ih h, List.map_cons]
  | framework found s ih => exact absurd ⟨found, (List.prefix_append _ _).isInfix⟩ h

/-- The name of the package stands in every import. -/
theorem package_infix_chars (found : FrameworkImport) :
    frameworkPackage.toList <:+: found.piece.chars := by
  refine ⟨fromChars ++ found.gap ++ [found.opening],
    (if found.internal then internalChars else []) ++ [found.closing], ?_⟩
  simp [FrameworkImport.piece, Piece.chars, Piece.charsWith, specifierChars]

/-- Without the package's name there is nothing to redirect. -/
theorem pieces_of_not_occursIn (h : occursIn frameworkPackage.toList s = false) :
    pieces s = s.map .other := by
  rw [← Bool.not_eq_true, occursIn_iff] at h
  exact pieces_of_not_hasImport fun ⟨found, hfound⟩ => h ((package_infix_chars found).trans hfound)

/-! ## Redirecting -/

/-- Redirecting puts the specifier of the typings into each import and changes nothing else. -/
theorem toList_redirect (typesDir file : Path) (content : String) (strays : Strays) :
    (redirect typesDir file content strays).toList =
      (pieces content.toList).flatMap
        (·.charsWith fun _ => (typingsSpecifier typesDir file strays).toList) := by
  unfold redirect
  split
  · exact String.toList_ofList
  · rename_i h
    rw [pieces_of_not_occursIn (by simpa using h), List.flatMap_map]
    simp [Piece.charsWith]

/-- The quotes are kept, and a quote in the specifier is put between them as it is. -/
example : redirect ⟨"/it's"⟩ ⟨"/a.d.ts"⟩ "from '@kiln/core'" =
    "from './it's/kiln-public-runtime'" := by
  decide +kernel

/-- A text that is changed has an import. -/
theorem exists_framework_of_redirect_ne {typesDir file : Path} {content : String} {strays : Strays}
    (h : redirect typesDir file content strays ≠ content) :
    ∃ gap opening internal closing,
      Piece.framework gap opening internal closing ∈ pieces content.toList := by
  by_contra hnone
  refine h (String.toList_injective ?_)
  rw [toList_redirect]
  refine Eq.trans (List.flatMap_congr fun piece hpiece => ?_) (flatMap_chars_pieces content.toList)
  cases piece with
  | other c => rw [Piece.chars, Piece.charsWith, Piece.charsWith]
  | framework gap opening internal closing =>
      exact absurd ⟨gap, opening, internal, closing, hpiece⟩ hnone

end WebComponents.Typings
