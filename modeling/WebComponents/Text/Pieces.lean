/-!
# Cutting and searching text

Texts are lists of characters here.  A separator cuts a text into pieces: `n` separators give
`n + 1` pieces, some of them possibly empty, and putting the separator back between the pieces
gives the text again (`join_split`).  A search looks for the leftmost place, and a replacement goes
on after the text that it put in, so that what it wrote is not searched again.
-/

namespace WebComponents.Text

/-! ## Pieces between separators -/

/-- The pieces of a text between the characters that separate. -/
def split (separates : Char → Bool) : List Char → List (List Char)
  | [] => [[]]
  | c :: rest =>
    if separates c then
      [] :: split separates rest
    else
      match split separates rest with
      | [] => [[c]]
      | piece :: pieces => (c :: piece) :: pieces

/-- The pieces with one separator between each two of them. -/
def join (separator : Char) : List (List Char) → List Char
  | [] => []
  | [piece] => piece
  | piece :: pieces => piece ++ separator :: join separator pieces

theorem split_ne_nil (separates : Char → Bool) (s : List Char) : split separates s ≠ [] := by
  cases s with
  | nil => simp [split]
  | cons c rest =>
      unfold split
      split
      · simp
      · split <;> simp

/-- Cutting at one character and joining with it gives the text back. -/
theorem join_split (sep : Char) (s : List Char) : join sep (split (· == sep) s) = s := by
  induction s with
  | nil => rfl
  | cons c rest ih =>
      unfold split
      split
      · rename_i h
        have hc : c = sep := by simpa using h
        subst hc
        match hp : split (· == c) rest with
        | [] => exact absurd hp (split_ne_nil _ _)
        | piece :: pieces =>
            rw [hp] at ih
            simp [join, ih]
      · match hp : split (· == sep) rest with
        | [] => exact absurd hp (split_ne_nil _ _)
        | [piece] =>
            rw [hp] at ih
            simpa [join] using ih
        | piece :: next :: pieces =>
            rw [hp] at ih
            simpa [join] using ih

/-- Two texts with a separator between them are cut one after the other. -/
theorem split_append_cons (separates : Char → Bool) (s t : List Char) {c : Char}
    (hc : separates c = true) :
    split separates (s ++ c :: t) = split separates s ++ split separates t := by
  induction s with
  | nil => simp [split, hc]
  | cons x s ih =>
      by_cases hx : separates x = true
      · simp [split, hx, ih]
      · cases hs : split separates s with
        | nil => exact absurd hs (split_ne_nil _ _)
        | cons piece pieces => simp [split, hx, ih, hs]

/-- A text without separators is its only piece. -/
theorem split_eq_singleton {sep : Char} {s : List Char} (h : sep ∉ s) :
    split (· == sep) s = [s] := by
  induction s with
  | nil => rfl
  | cons c rest ih =>
      simp only [List.mem_cons, not_or] at h
      have hc : (c == sep) = false := by simpa using fun hc => h.1 hc.symm
      simp [split, hc, ih h.2]

/-- No piece holds the separator. -/
theorem not_mem_of_mem_split {sep : Char} {s piece : List Char}
    (h : piece ∈ split (· == sep) s) : sep ∉ piece := by
  induction s generalizing piece with
  | nil => simp_all [split]
  | cons c rest ih =>
      unfold split at h
      split at h
      · rcases List.mem_cons.1 h with rfl | h
        · simp
        · exact ih h
      · rename_i hc
        split at h
        · exact absurd ‹_› (split_ne_nil _ _)
        · rename_i first more heq
          rw [heq] at ih
          rcases List.mem_cons.1 h with rfl | h
          · have hfirst := ih List.mem_cons_self
            simp only [List.mem_cons, not_or]
            exact ⟨fun h => hc (by simp [← h]), hfirst⟩
          · exact ih (List.mem_cons_of_mem _ h)

/-! ## Ends of a text -/

/-- The text without its longest end of characters that satisfy `drops`. -/
def dropEndWhile (drops : Char → Bool) : List Char → List Char
  | [] => []
  | c :: rest =>
    match dropEndWhile drops rest with
    | [] => if drops c then [] else [c]
    | kept => c :: kept

/-! ## Search and replacement -/

/-- Whether `pattern` stands somewhere in the text. -/
def occursIn (pattern : List Char) : List Char → Bool
  | [] => pattern.isEmpty
  | c :: rest => pattern.isPrefixOf (c :: rest) || occursIn pattern rest

/-- The text with every occurrence of `pattern`, taken from the left and without overlap, replaced.
`covered` counts the characters that still belong to the last occurrence. -/
def replaceFrom (pattern replacement : List Char) (covered : Nat) : List Char → List Char
  | [] => []
  | c :: rest =>
    match covered with
    | n + 1 => replaceFrom pattern replacement n rest
    | 0 =>
      if pattern.isPrefixOf (c :: rest) then
        replacement ++ replaceFrom pattern replacement (pattern.length - 1) rest
      else
        c :: replaceFrom pattern replacement 0 rest

/-- The text with every occurrence of the non-empty `pattern` replaced, leftmost first. -/
def replaceAll (pattern replacement s : List Char) : List Char :=
  replaceFrom pattern replacement 0 s

end WebComponents.Text
