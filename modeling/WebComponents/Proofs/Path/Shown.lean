import Mathlib.Data.List.Basic
import WebComponents.Path.Segments

/-!
# Paths as they are shown

A path is shown with a replacement for its strays (`Text.Strays.shown`).  Nothing but a text without
strays is shown as it is (`shown_eq_self_iff`), so whoever reads a path from where it was shown
finds the same path only if there was no stray in it.

Slashes are no strays, and a replacement does not reach beyond one.  So each name is shown by itself
(`namesIn_shown`), and a name is shown as a name.
-/

namespace WebComponents.Text.Strays

variable {strays : Strays} {s t : List Char} {c : Char} {n : Nat}

/-! ## Texts -/

theorem goingOn_append_cons (hc : strays.byte? c = .none) (bounds : List (UInt8 × UInt8))
    (s t : List Char) : strays.goingOn bounds (s ++ c :: t) = strays.goingOn bounds s := by
  induction bounds generalizing s with
  | nil => cases s <;> rfl
  | cons bound bounds ih =>
      cases s with
      | nil => simp [goingOn, hc]
      | cons d s => simp only [List.cons_append, goingOn, ih]

theorem goingOn_le_length (bounds : List (UInt8 × UInt8)) (s : List Char) :
    strays.goingOn bounds s ≤ s.length := by
  induction bounds generalizing s with
  | nil => cases s <;> exact Nat.zero_le _
  | cons bound bounds ih =>
      cases s with
      | nil => exact Nat.zero_le _
      | cons d s =>
          unfold goingOn
          split
          · split
            · exact Nat.succ_le_succ (ih s)
            · exact Nat.zero_le _
          · exact Nat.zero_le _

/-- No replacement reaches beyond a character that is no stray. -/
theorem shownFrom_append_cons (hc : strays.byte? c = .none) (t : List Char) (hn : n ≤ s.length) :
    strays.shownFrom n (s ++ c :: t) = strays.shownFrom n s ++ c :: strays.shown t := by
  induction s generalizing n with
  | nil =>
      rw [Nat.le_zero.mp hn]
      simp [shownFrom, hc, shown]
  | cons d s ih =>
      cases n with
      | succ n => exact ih (Nat.le_of_succ_le_succ hn)
      | zero =>
          cases hd : strays.byte? d with
          | none => simp [shownFrom, hd, ih (Nat.zero_le _)]
          | some byte =>
              simp [shownFrom, hd, goingOn_append_cons hc, ih (goingOn_le_length _ s)]

theorem shown_append_cons (hc : strays.byte? c = .none) (s t : List Char) :
    strays.shown (s ++ c :: t) = strays.shown s ++ c :: strays.shown t :=
  shownFrom_append_cons hc t (Nat.zero_le _)

theorem eq_replacementChar_or_mem_of_mem_shownFrom (h : c ∈ strays.shownFrom n s) :
    c = replacementChar ∨ c ∈ s := by
  induction s generalizing n with
  | nil => cases h
  | cons d s ih =>
      cases n with
      | succ n => exact (ih h).imp_right (List.mem_cons_of_mem _)
      | zero =>
          cases hd : strays.byte? d with
          | none =>
              simp only [shownFrom, hd] at h
              rcases List.mem_cons.mp h with rfl | h
              · exact Or.inr List.mem_cons_self
              · exact (ih h).imp_right (List.mem_cons_of_mem _)
          | some byte =>
              simp only [shownFrom, hd] at h
              rcases List.mem_cons.mp h with rfl | h
              · exact Or.inl rfl
              · exact (ih h).imp_right (List.mem_cons_of_mem _)

theorem notMem_shown (hc : c ≠ replacementChar) (h : c ∉ s) : c ∉ strays.shown s := fun hshown =>
  (eq_replacementChar_or_mem_of_mem_shownFrom hshown).elim hc h

theorem replacementChar_mem_shown (hc : c ∈ s) (hstray : strays.byte? c ≠ .none) :
    replacementChar ∈ strays.shown s := by
  unfold shown
  induction s with
  | nil => cases hc
  | cons d s ih =>
      cases hd : strays.byte? d with
      | none =>
          simp only [shownFrom, hd]
          rcases List.mem_cons.mp hc with rfl | hc
          · exact absurd hd hstray
          · exact List.mem_cons_of_mem _ (ih hc)
      | some byte =>
          simp only [shownFrom, hd]
          exact List.mem_cons_self

/-- A text is shown as it is exactly if it has no strays. -/
theorem shown_eq_self_iff : strays.shown s = s ↔ ∀ c ∈ s, strays.byte? c = .none := by
  unfold shown
  induction s with
  | nil => simp [shownFrom]
  | cons d s ih =>
      cases hd : strays.byte? d with
      | none => simp [shownFrom, hd, ih]
      | some byte =>
          -- a stray is replaced, and what it is replaced by is no stray
          have hne : replacementChar ≠ d := by
            rintro rfl
            cases hd.symm.trans strays.byte?_replacementChar
          simp [shownFrom, hd, hne]

theorem shown_none (s : List Char) : none.shown s = s :=
  shown_eq_self_iff.mpr fun _ _ => rfl

/-- What is shown as ASCII text is this text. -/
theorem shown_eq_iff_of_ascii (ht : ∀ c ∈ t, c.toNat < 0x80) : strays.shown s = t ↔ s = t := by
  constructor
  · rintro rfl
    refine (shown_eq_self_iff.mpr fun c hc => ?_).symm
    by_contra hstray
    exact absurd (ht _ (replacementChar_mem_shown hc hstray)) (by decide)
  · rintro rfl
    exact shown_eq_self_iff.mpr fun c hc => strays.byte?_ascii c (ht c hc)

/-- The text has no strays. -/
def IsText (strays : Strays) (text : String) : Prop :=
  ∀ c ∈ text.toList, strays.byte? c = .none

end WebComponents.Text.Strays

namespace WebComponents.Path

open Text

variable {strays : Strays} {name : String} {piece : List Char}

/-! ## Names -/

/-- A name as it is shown. -/
def shownName (strays : Strays) (name : String) : String :=
  String.ofList (strays.shown name.toList)

theorem shownName_eq_self_iff : shownName strays name = name ↔ strays.IsText name := by
  rw [shownName, ← String.toList_inj, String.toList_ofList, Strays.shown_eq_self_iff,
    Strays.IsText]

theorem isName_shownName (h : IsName name) : IsName (shownName strays name) := by
  obtain ⟨hempty, hslash, hdot, hdots⟩ := h
  rw [shownName, IsName, String.toList_ofList]
  exact ⟨mt (Strays.shown_eq_iff_of_ascii (by simp)).mp hempty,
    Strays.notMem_shown (by decide) hslash,
    mt (Strays.shown_eq_iff_of_ascii (by simp)).mp hdot,
    mt (Strays.shown_eq_iff_of_ascii (by simp)).mp hdots⟩

/-- A segment as it is shown. -/
def Segment.shown (strays : Strays) : Segment → Segment
  | .name name => .name (shownName strays name)
  | segment => segment

theorem segment?_shown (piece : List Char) :
    segment? (strays.shown piece) = (segment? piece).map (Segment.shown strays) := by
  have hempty : strays.shown piece = [] ↔ piece = [] :=
    Strays.shown_eq_iff_of_ascii (by simp)
  have hdot : strays.shown piece = ['.'] ↔ piece = ['.'] :=
    Strays.shown_eq_iff_of_ascii (by simp)
  have hdots : strays.shown piece = ['.', '.'] ↔ piece = ['.', '.'] :=
    Strays.shown_eq_iff_of_ascii (by simp)
  have hvoid : isVoid (strays.shown piece) = isVoid piece := by
    rw [Bool.eq_iff_iff]
    simp only [isVoid, Bool.or_eq_true, List.isEmpty_iff, beq_iff_eq, hempty, hdot]
  unfold segment?
  rw [hvoid]
  split
  · rfl
  · simp only [hdots]
    split
    · rfl
    · simp [Segment.shown, shownName]

/-- Each segment is shown by itself. -/
theorem namesIn_shown (s : List Char) :
    namesIn (strays.shown s) = (namesIn s).map (Segment.shown strays) := by
  induction hlength : s.length using Nat.strongRecOn generalizing s with
  | ind n ih =>
      subst hlength
      by_cases hslash : '/' ∈ s
      · -- a slash is shown as it is, and so are the texts before and after it
        obtain ⟨before, after, rfl⟩ := List.append_of_mem hslash
        have hbefore := ih before.length (by simp) before rfl
        have hafter := ih after.length (by simp; omega) after rfl
        rw [Strays.shown_append_cons (strays.byte?_ascii _ (by decide)), namesIn_append_slash,
          namesIn_append_slash, hbefore, hafter, List.map_append]
      · have hshown : '/' ∉ strays.shown s := Strays.notMem_shown (by decide) hslash
        rw [namesIn, namesIn, split_eq_singleton hslash, split_eq_singleton hshown,
          List.filterMap_cons, List.filterMap_cons, segment?_shown]
        cases segment? s <;> rfl

end WebComponents.Path
