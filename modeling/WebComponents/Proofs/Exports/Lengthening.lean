import Mathlib.Data.List.Basic
import WebComponents.Exports.Rename
import WebComponents.Proofs.Exports.Numbered

/-!
# Renaming only lengthens

An alias of a run exports its type under the local name or under that name with a number after it.
So a text that it changes gets longer (`Lengthens`), be it an identifier or a signature in which all
occurrences are replaced, and a change is never taken back: aliases leave a text alone together
exactly if each of them does (`Lengthens.foldl_eq_self_iff`).
-/

namespace WebComponents.Exports

open NameCounts Text

/-! ## Replacing by something longer -/

section Replacing

variable {pattern replacement : List Char}

theorem length_le_length_replaceFrom (hpattern : pattern ≠ [])
    (h : pattern.length ≤ replacement.length) (covered : Nat) (s : List Char) :
    s.length ≤ (replaceFrom pattern replacement covered s).length + covered := by
  have hpos := List.length_pos_iff.mpr hpattern
  induction s generalizing covered with
  | nil => exact Nat.zero_le _
  | cons c rest ih =>
      cases covered with
      | succ n =>
          have hrest := ih n
          rw [replaceFrom, List.length_cons]
          omega
      | zero =>
          rw [replaceFrom, List.length_cons]
          split
          · have hrest := ih (pattern.length - 1)
            rw [List.length_append]
            omega
          · have hrest := ih 0
            rw [List.length_cons]
            omega

theorem replaceAll_eq_self_or_length_lt (hpattern : pattern ≠ [])
    (h : pattern.length < replacement.length) (s : List Char) :
    replaceAll pattern replacement s = s ∨
      s.length < (replaceAll pattern replacement s).length := by
  have hpos := List.length_pos_iff.mpr hpattern
  unfold replaceAll
  induction s with
  | nil => exact .inl rfl
  | cons c rest ih =>
      rw [replaceFrom]
      split
      · -- the replacement is longer than what it covers
        have hrest :=
          length_le_length_replaceFrom hpattern (Nat.le_of_lt h) (pattern.length - 1) rest
        right
        rw [List.length_append, List.length_cons]
        omega
      · obtain hsame | hlonger := ih
        · exact .inl (by rw [hsame])
        · right
          rw [List.length_cons, List.length_cons]
          omega

end Replacing

/-! ## Aliases -/

/-- A text that a numbered alias changes gets longer. -/
def Lengthens (rename : String → Alias → String) : Prop :=
  ∀ item, (∃ k, item.exportName = numbered item.localName k) → ∀ text,
    rename text item = text ∨ text.toList.length < (rename text item).toList.length

theorem lengthens_renameIdentifier : Lengthens renameIdentifier := by
  rintro item ⟨k, hk⟩ text
  unfold renameIdentifier
  split
  · rename_i hname
    rw [← hname.1]
    by_cases hsame : item.exportName = item.localName
    · exact .inl hsame
    · rw [hk] at hsame ⊢
      exact .inr (length_lt_numbered hsame)
  · exact .inl rfl

theorem lengthens_renameOccurrences : Lengthens renameOccurrences := by
  rintro item ⟨k, hk⟩ text
  unfold renameOccurrences
  split
  · exact .inl rfl
  · rename_i hsame
    rw [not_or] at hsame
    have hname : item.localName.toList ≠ [] := by
      rw [Ne, String.toList_eq_nil_iff]
      exact hsame.1
    have hlonger : item.localName.toList.length < item.exportName.toList.length := by
      rw [hk] at hsame ⊢
      exact length_lt_numbered (Ne.symm hsame.2)
    obtain hkept | hlt := replaceAll_eq_self_or_length_lt hname hlonger text.toList
    · left
      rw [hkept, String.ofList_toList]
    · right
      rw [String.toList_ofList]
      exact hlt

variable {rename : String → Alias → String} {items : List Alias}

theorem Lengthens.length_le (h : Lengthens rename)
    (hnumbered : ∀ item ∈ items, ∃ k, item.exportName = numbered item.localName k)
    (text : String) : text.toList.length ≤ (items.foldl rename text).toList.length := by
  induction items generalizing text with
  | nil => exact Nat.le_refl _
  | cons item items ih =>
      rw [List.forall_mem_cons] at hnumbered
      have hitem : text.toList.length ≤ (rename text item).toList.length := by
        obtain hsame | hlt := h item hnumbered.1 text
        · exact Nat.le_of_eq (by rw [hsame])
        · exact Nat.le_of_lt hlt
      calc
        text.toList.length ≤ (rename text item).toList.length := hitem
        _ ≤ (items.foldl rename (rename text item)).toList.length := ih hnumbered.2 _

/-- A fold whose steps change nothing. -/
theorem foldl_eq_self {α β : Type} {step : β → α → β} {items : List α} {start : β}
    (h : ∀ item ∈ items, step start item = start) : items.foldl step start = start := by
  induction items with
  | nil => rfl
  | cons item items ih =>
      rw [List.foldl_cons, h item List.mem_cons_self]
      exact ih fun other hother => h other (List.mem_cons_of_mem _ hother)

/-- A change is never taken back. -/
theorem Lengthens.foldl_eq_self_iff (h : Lengthens rename)
    (hnumbered : ∀ item ∈ items, ∃ k, item.exportName = numbered item.localName k)
    (text : String) :
    items.foldl rename text = text ↔ ∀ item ∈ items, rename text item = text := by
  refine ⟨fun hfold => ?_, foldl_eq_self⟩
  induction items with
  | nil => exact List.forall_mem_nil _
  | cons item items ih =>
      rw [List.forall_mem_cons] at hnumbered ⊢
      rw [List.foldl_cons] at hfold
      have hitem : rename text item = text := by
        obtain hsame | hlt := h item hnumbered.1 text
        · exact hsame
        · have hle := h.length_le hnumbered.2 (rename text item)
          rw [hfold] at hle
          omega
      rw [hitem] at hfold
      exact ⟨hitem, ih hnumbered.2 hfold⟩

end WebComponents.Exports
