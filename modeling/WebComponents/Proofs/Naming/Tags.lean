import Mathlib.Tactic.Common
import WebComponents.Naming
import WebComponents.Proofs.Text.Ascii
import WebComponents.Proofs.Text.Words
import WebComponents.Tag

/-!
# Tags without a fault

The rules for tags are tried one after the other, and a text without a fault keeps them all
(`charsFault?_eq_none_iff`).  Its characters are ASCII letters, digits, underscores and dashes, so
neither a tag nor the class that is named after it breaks a line.
-/

namespace WebComponents.Tag

open Text

variable {s : List Char} {tag : String} {c : Char}

private theorem ite_some_eq_none_iff {α : Type} {p : Prop} [Decidable p] {first : α}
    {later : Option α} : (if p then some first else later) = none ↔ ¬ p ∧ later = none := by
  split <;> simp [*]

theorem charsFault?_eq_none_iff :
    charsFault? s = none ↔
      s = trim s ∧ s = lower s ∧ s ≠ [] ∧ ' ' ∉ s ∧ ',' ∉ s ∧ (∀ c ∈ s, isTagChar c = true) ∧
        '-' ∈ s ∧ occursIn ['-', '-'] s = false ∧ s.head? ≠ some '-' ∧ s.getLast? ≠ some '-' := by
  simp only [charsFault?, ite_some_eq_none_iff]
  simp

theorem ne_empty_of_fault? (h : fault? tag = none) : tag ≠ "" := by
  rintro rfl
  revert h
  decide

theorem isTagChar_of_fault? (h : fault? tag = none) : ∀ c ∈ tag.toList, isTagChar c = true := by
  obtain ⟨_, _, _, _, _, hchars, _⟩ := charsFault?_eq_none_iff.mp h
  exact hchars

theorem toNat_lt_of_isTagChar (h : isTagChar c = true) : c.toNat < 128 := by
  simp only [isTagChar, Bool.or_eq_true, beq_iff_eq] at h
  rcases h with (halnum | rfl) | rfl
  · exact toNat_lt_of_isAlphanum halnum
  · decide
  · decide

/-! ## Line breaks -/

/-- No character of a tag breaks a line, nor does its capital form. -/
theorem newline_notMem_of_isTagChar (h : isTagChar c = true) :
    c ≠ '\n' ∧ '\n' ∉ upperChar c := by
  have hascii : isTagChar c = true → c ≠ '\n' ∧ '\n' ∉ upperChar c :=
    forall_ascii c (toNat_lt_of_isTagChar h) (by decide)
  exact hascii h

theorem newline_notMem_of_fault? (h : fault? tag = none) : '\n' ∉ tag.toList :=
  fun hmem => (newline_notMem_of_isTagChar (isTagChar_of_fault? h _ hmem)).1 rfl

theorem newline_notMem_pascalCase (h : fault? tag = none) :
    '\n' ∉ (Naming.pascalCase tag).toList := by
  have hchars := isTagChar_of_fault? h
  rw [Naming.pascalCase, String.toList_ofList, Naming.pascalChars]
  intro hmem
  obtain ⟨piece, hpiece, hcapital⟩ := List.mem_flatMap.mp hmem
  have hbreak {c : Char} (hc : c ∈ piece) : c ≠ '\n' ∧ '\n' ∉ upperChar c :=
    newline_notMem_of_isTagChar (hchars c (mem_of_mem_split hpiece hc))
  cases piece with
  | nil => cases hcapital
  | cons first rest =>
      rcases List.mem_append.mp hcapital with hfirst | hrest
      · exact (hbreak List.mem_cons_self).2 hfirst
      · exact (hbreak (List.mem_cons_of_mem _ hrest)).1 rfl

end WebComponents.Tag
