import WebComponents.Proofs.Exports.Handouts
import WebComponents.Proofs.Path.Ways

/-!
# One file under several spellings

References to one file may spell it differently: as the file they stand in, through a specifier that
leads from there, or through an absolute specifier.  The registry tells files apart by segments, so
one file should have one key, and a type that is registered under one spelling should be known under
every other.

Only a relative import is cleaned before it becomes a key.  The other two routes keep the spelling,
so the law holds exactly when both spellings are clean, or when neither is cleaned and both have the
same segments (`sharesKey_iff`).
-/

namespace WebComponents.Exports

open Metadata

/-- The spelling of the declaring file: of the referring file itself, of the way that a relative
specifier leads from its directory, or of an absolute specifier.  A type known everywhere and a
package have none. -/
def spelledFile? (source : Path) : Reference → Option Path
  | .everywhere => none
  | .here => some source
  | .imported specifier =>
    if specifier.toList.head? = some '.' then some (source.directory.join ⟨specifier⟩)
    else if (Path.mk specifier).isAbsolute then some ⟨specifier⟩
    else none

/-- An import through a specifier that is read in the directory of the referring file. -/
def IsRelativeImport : Reference → Prop
  | .imported specifier => specifier.toList.head? = some '.'
  | _ => False

instance : DecidablePred IsRelativeImport
  | .imported specifier => inferInstanceAs (Decidable (specifier.toList.head? = some '.'))
  | .here => inferInstanceAs (Decidable False)
  | .everywhere => inferInstanceAs (Decidable False)

/-- The registry's key for the declaring file, told from its spelling. -/
def keyOf (reference : Reference) (spelled : Path) : Path :=
  if IsRelativeImport reference then spelled.clean else spelled

theorem declaringFile?_of_spelledFile? {source spelled : Path} {reference : Reference}
    (h : spelledFile? source reference = some spelled) :
    declaringFile? source reference = some (keyOf reference spelled) := by
  cases reference with
  | everywhere => cases h
  | here =>
      cases h
      rfl
  | imported specifier =>
      by_cases hdot : specifier.toList.head? = some '.'
      · have hrelative : IsRelativeImport (.imported specifier) := hdot
        rw [spelledFile?, if_pos hdot] at h
        cases h
        rw [declaringFile?, if_pos hdot, keyOf, if_pos hrelative]
        rfl
      · have hrelative : ¬ IsRelativeImport (.imported specifier) := hdot
        rw [spelledFile?, if_neg hdot] at h
        rw [declaringFile?, if_neg hdot, keyOf, if_neg hrelative]
        split at h
        · cases h
          rfl
        · cases h

/-- The key is the clean form of the file's spelling. -/
def IsCleanKey (reference : Reference) (spelled : Path) : Prop :=
  IsRelativeImport reference ∨ spelled.clean.Same spelled

theorem isCleanKey_iff (reference : Reference) (spelled : Path) :
    IsCleanKey reference spelled ↔ (keyOf reference spelled).Same spelled.clean := by
  unfold IsCleanKey keyOf
  by_cases h : IsRelativeImport reference
  · rw [if_pos h]
    exact iff_of_true (Or.inl h) (Path.Same.refl _)
  · rw [if_neg h]
    exact ⟨fun hclean => (hclean.resolve_left h).symm, fun hsame => Or.inr hsame.symm⟩

/-- Both references lead to the same key, and a type that was registered through the first keeps its
name when it is registered through the second, which changes nothing. -/
def SharesKey (source : Path) (reference : Reference) (source' : Path) (reference' : Reference) :
    Prop :=
  ∃ key key', declaringFile? source reference = some key ∧
    declaringFile? source' reference' = some key' ∧ key.Same key' ∧
    ∀ (ledger : Ledger) (name : String),
      (ledger.register key name).2.register key' name = ledger.register key name

variable {source source' spelled spelled' : Path} {reference reference' : Reference}

theorem sharesKey_iff_same (h : spelledFile? source reference = some spelled)
    (h' : spelledFile? source' reference' = some spelled') :
    SharesKey source reference source' reference' ↔
      (keyOf reference spelled).Same (keyOf reference' spelled') := by
  constructor
  · rintro ⟨key, key', hkey, hkey', hsame, -⟩
    rw [declaringFile?_of_spelledFile? h] at hkey
    rw [declaringFile?_of_spelledFile? h'] at hkey'
    cases hkey
    cases hkey'
    exact hsame
  · intro hsame
    refine ⟨_, _, declaringFile?_of_spelledFile? h, declaringFile?_of_spelledFile? h', hsame, ?_⟩
    exact fun ledger name => register_after ledger [] hsame.symm name

/-- **One file, one key.**  Two references to one file share a key exactly when both keys are clean,
or when both keep spellings that have the same segments. -/
theorem sharesKey_iff (h : spelledFile? source reference = some spelled)
    (h' : spelledFile? source' reference' = some spelled')
    (htarget : spelled.clean.Same spelled'.clean) :
    SharesKey source reference source' reference' ↔
      IsCleanKey reference spelled ∧ IsCleanKey reference' spelled' ∨
        ¬ IsRelativeImport reference ∧ ¬ IsRelativeImport reference' ∧ spelled.Same spelled' := by
  rw [sharesKey_iff_same h h', isCleanKey_iff, isCleanKey_iff]
  constructor
  · intro hsame
    by_cases hrelative : IsRelativeImport reference
    · -- the first key is the clean form, and so is the second
      have hkey : (keyOf reference spelled).Same spelled.clean :=
        (isCleanKey_iff _ _).mp (Or.inl hrelative)
      exact Or.inl ⟨hkey, hsame.symm.trans (hkey.trans htarget)⟩
    by_cases hrelative' : IsRelativeImport reference'
    · have hkey' : (keyOf reference' spelled').Same spelled'.clean :=
        (isCleanKey_iff _ _).mp (Or.inl hrelative')
      exact Or.inl ⟨hsame.trans (hkey'.trans htarget.symm), hkey'⟩
    rw [keyOf, if_neg hrelative, keyOf, if_neg hrelative'] at hsame
    exact Or.inr ⟨hrelative, hrelative', hsame⟩
  · rintro (⟨hkey, hkey'⟩ | ⟨hrelative, hrelative', hsame⟩)
    · exact hkey.trans (htarget.trans hkey'.symm)
    · rw [keyOf, if_neg hrelative, keyOf, if_neg hrelative']
      exact hsame

/-- A component's own file, spelled cleanly, and an import that leads back to it. -/
theorem sharesKey_iff_import :
    (Path.mk "/src/a.tsx").clean.Same (Path.mk "/src/b/../a.tsx").clean ∧
      SharesKey ⟨"/src/a.tsx"⟩ .here ⟨"/src/b/b.tsx"⟩ (.imported "../a.tsx") := by
  have hspelled : spelledFile? ⟨"/src/b/b.tsx"⟩ (.imported "../a.tsx") =
      some ⟨"/src/b/../a.tsx"⟩ := by decide
  have htarget : (Path.mk "/src/a.tsx").clean.Same (Path.mk "/src/b/../a.tsx").clean := by decide
  refine ⟨htarget, (sharesKey_iff rfl hspelled htarget).mpr (Or.inl ⟨Or.inr ?_, Or.inl ?_⟩)⟩
  · decide
  · decide

/-- A component whose file is spelled with a `..` does not share its key with those that import
from it. -/
theorem not_sharesKey_back :
    ¬ ∀ (source : Path) (reference : Reference) (source' : Path) (reference' : Reference)
        (spelled spelled' : Path), spelledFile? source reference = some spelled →
      spelledFile? source' reference' = some spelled' → spelled.clean.Same spelled'.clean →
      SharesKey source reference source' reference' := by
  intro hlaw
  obtain ⟨key, key', hkey, hkey', hsame, -⟩ := hlaw ⟨"/src/x/../a.tsx"⟩ .here ⟨"/src/b.tsx"⟩
    (.imported "./a.tsx") ⟨"/src/x/../a.tsx"⟩ ⟨"/src/./a.tsx"⟩ rfl (by decide) (by decide)
  cases hkey
  have hclean : declaringFile? ⟨"/src/b.tsx"⟩ (.imported "./a.tsx") = some ⟨"/src/a.tsx"⟩ := by
    decide
  rw [hclean] at hkey'
  cases hkey'
  exact absurd hsame (by decide)

end WebComponents.Exports
