import Mathlib.Data.List.Infix
import WebComponents.Proofs.Typings.Imports

/-!
# Where imports stand

The program looks for imports from left to right and goes on after each one it finds.  It misses
none, because no two imports overlap: the only `f` of an import is its first character, so an import
that starts before another one ends before it (`prefix_of_prefix_append`).  Hence an import is a
piece wherever it stands, and the text before it and the text after it have the pieces that they
have by themselves (`pieces_append_append`).

For redirecting this says all there is to say (`redirect_exact`).  A text without an import stays,
and a text with one is redirected before it, in it and after it:

```text
from "a"; from '@kiln/core/x'; from␣␣'@kiln/core/internal"; from '@kiln/core'
└──────────── before ────────┘ └────────── import ────────┘ └──── after ────┘
```
-/

namespace WebComponents.Typings

open Text

variable {s t specifier : List Char}

/-! ## Imports do not overlap -/

theorem FrameworkImport.f_notMem (found : FrameworkImport) :
    'f' ∉ found.gap ∧ 'f' ≠ found.opening ∧ 'f' ≠ found.closing := by
  refine ⟨fun hmem => absurd (found.gap_blank 'f' hmem) (by decide), ?_, ?_⟩
  · rcases found.opening_quote with h | h <;> rw [h] <;> decide
  · rcases found.closing_quote with h | h <;> rw [h] <;> decide

/-- An import has no other `f` than the one it begins with. -/
theorem exists_chars_eq_cons (found : FrameworkImport) :
    ∃ tail, found.piece.chars = 'f' :: tail ∧ 'f' ∉ tail := by
  refine ⟨_, rfl, ?_⟩
  obtain ⟨hgap, hopening, hclosing⟩ := found.f_notMem
  have hspecifier : 'f' ∉ specifierChars found.internal := by
    cases found.internal <;> decide
  simp [hgap, hopening, hclosing, hspecifier]

/-- An import that starts before an `f` ends before it. -/
theorem prefix_of_prefix_append {found : FrameworkImport} (hs : s ≠ []) (ht : t.head? = some 'f')
    (h : found.piece.chars <+: s ++ t) : found.piece.chars <+: s := by
  rcases List.prefix_or_prefix_of_prefix h (List.prefix_append s t) with hshort | hlong
  · exact hshort
  · obtain ⟨more, hmore⟩ := hlong
    cases more with
    | nil => rw [← hmore, List.append_nil]
    | cons c more =>
        -- the import would go on with the `f` of the other text
        rw [← hmore] at h
        obtain ⟨_, hrest⟩ := (List.prefix_append_right_inj s).mp h
        rw [← hrest, List.cons_append, List.head?_cons, Option.some_inj] at ht
        subst ht
        obtain ⟨tail, hchars, htail⟩ := exists_chars_eq_cons found
        obtain ⟨a, s, rfl⟩ := List.exists_cons_of_ne_nil hs
        rw [hchars, List.cons_append, List.cons.injEq] at hmore
        rw [← hmore.2] at htail
        simp at htail

/-- An import is a piece wherever it stands, and the text around it keeps its own pieces. -/
theorem pieces_append_append (found : FrameworkImport) (before after : List Char) :
    pieces (before ++ (found.piece.chars ++ after)) =
      pieces before ++ found.piece :: pieces after := by
  induction before using pieces_induction with
  | nil => exact pieces_append found after
  | other c before hnone ih =>
      have hstill : framework? (c :: (before ++ (found.piece.chars ++ after))) = none := by
        refine Option.eq_none_iff_forall_ne_some.mpr fun piece hpiece => ?_
        obtain ⟨earlier, rest, _, hchars⟩ := exists_import_of_framework? hpiece
        have hstarts : earlier.piece.chars <+: c :: before ++ (found.piece.chars ++ after) :=
          ⟨rest, hchars.symm⟩
        obtain ⟨rest, hends⟩ := prefix_of_prefix_append (List.cons_ne_nil c before) rfl hstarts
        rw [← hends, framework?_append] at hnone
        cases hnone
      rw [List.cons_append, pieces_of_framework?_eq_none hstill, ih,
        pieces_of_framework?_eq_none hnone, List.cons_append]
  | framework earlier before ih =>
      rw [List.append_assoc, pieces_append, ih, pieces_append, List.cons_append]

/-- The program finds an import if there is one. -/
theorem hasImport_iff : HasImport s ↔ pieces s ≠ s.map .other := by
  refine ⟨?_, not_imp_comm.mp pieces_of_not_hasImport⟩
  rintro ⟨found, before, after, rfl⟩ hpieces
  have hmem : found.piece ∈ (before ++ found.piece.chars ++ after).map Piece.other := by
    rw [← hpieces, List.append_assoc, pieces_append_append]
    exact List.mem_append_right _ List.mem_cons_self
  obtain ⟨c, _, hother⟩ := List.mem_map.mp hmem
  cases hother

instance : DecidablePred HasImport := fun _ => decidable_of_iff _ hasImport_iff.symm

theorem hasImport_toList_iff {content : String} :
    HasImport content.toList ↔
      ∃ before, ∃ found : FrameworkImport, ∃ after, content = before ++ found.text ++ after := by
  constructor
  · rintro ⟨found, before, after, hcontent⟩
    refine ⟨String.ofList before, found, String.ofList after, String.toList_injective ?_⟩
    simp [FrameworkImport.toList_text, ← hcontent]
  · rintro ⟨before, found, after, rfl⟩
    exact ⟨found, before.toList, after.toList, by simp [FrameworkImport.toList_text]⟩

/-! ## Redirected texts -/

/-- The text with another specifier in its imports. -/
def redirected (specifier s : List Char) : List Char :=
  (pieces s).flatMap (·.charsWith fun _ => specifier)

theorem redirected_of_not_hasImport (specifier : List Char) (h : ¬ HasImport s) :
    redirected specifier s = s := by
  rw [redirected, pieces_of_not_hasImport h, List.flatMap_map]
  exact List.flatMap_singleton' s

theorem redirected_append_append (specifier : List Char) (found : FrameworkImport)
    (before after : List Char) :
    redirected specifier (before ++ (found.piece.chars ++ after)) =
      redirected specifier before ++
        (found.piece.charsWith (fun _ => specifier) ++ redirected specifier after) := by
  rw [redirected, pieces_append_append, List.flatMap_append, List.flatMap_cons]
  rfl

/-- **What is redirected.**  A text without an import of the framework stays as it is.  An import
gets the specifier of the typings wherever it stands, and the text before it and the text after it
are redirected by themselves. -/
theorem redirect_exact (typesDir file : Path) :
    (∀ content,
      (∀ before (found : FrameworkImport) after, content ≠ before ++ found.text ++ after) →
        redirect typesDir file content = content) ∧
    ∀ before (found : FrameworkImport) after,
      redirect typesDir file (before ++ found.text ++ after) =
        redirect typesDir file before ++ found.textWith (typingsSpecifier typesDir file) ++
          redirect typesDir file after := by
  constructor
  · intro content hnone
    refine String.toList_injective ?_
    rw [toList_redirect]
    refine redirected_of_not_hasImport _ fun himport => ?_
    obtain ⟨before, found, after, hcontent⟩ := hasImport_toList_iff.mp himport
    exact hnone before found after hcontent
  · intro before found after
    refine String.toList_injective ?_
    simp only [String.toList_append, toList_redirect, FrameworkImport.toList_text,
      FrameworkImport.toList_textWith, List.append_assoc]
    exact redirected_append_append _ found before.toList after.toList

/-- Specifiers that only begin like the package stay, also beside an import with unlike quotes. -/
theorem redirect_exact_lookalikes :
    let before := "import { a } from '@kiln/core/testing';\nimport { b } from '@kiln/core.js';\n"
    let found : FrameworkImport :=
      ⟨[' ', '\n'], '\'', true, '"', List.all_eq_true.mp rfl, Or.inl rfl, Or.inr rfl⟩
    let after := "; from '@kiln/core"
    redirect ⟨"/dist/types"⟩ ⟨"/dist/types/x/a.d.ts"⟩ (before ++ found.text ++ after) =
      before ++ "from \n'../kiln-public-runtime\"" ++ after := by
  intro before found after
  obtain ⟨hkept, hsplit⟩ := redirect_exact ⟨"/dist/types"⟩ ⟨"/dist/types/x/a.d.ts"⟩
  have hnone (content : String) (h : ¬ HasImport content.toList) :
      redirect ⟨"/dist/types"⟩ ⟨"/dist/types/x/a.d.ts"⟩ content = content :=
    hkept content fun before found after hcontent =>
      h (hasImport_toList_iff.mpr ⟨before, found, after, hcontent⟩)
  have htext : found.textWith (typingsSpecifier ⟨"/dist/types"⟩ ⟨"/dist/types/x/a.d.ts"⟩) =
      "from \n'../kiln-public-runtime\"" := by decide +kernel
  rw [hsplit, hnone before (by decide), hnone after (by decide), htext]

end WebComponents.Typings
