import WebComponents.Path.Basic

/-!
# The directories above a path

`ancestors` lists a path, its parent, the parent of that and so on, down to the root or to the first
segment of a relative path.  The list ends because a parent's text is shorter
(`parent?_length_lt`).
-/

namespace WebComponents.Path

open Text

private theorem length_join_cons (piece : List Char) (pieces : List (List Char)) :
    (Text.join '/' (piece :: pieces)).length =
      piece.length + if pieces = [] then 0 else (Text.join '/' pieces).length + 1 := by
  cases pieces with
  | nil => simp [Text.join]
  | cons next more => simp [Text.join]

private theorem length_join_dropVoidEnd_le (pieces : List (List Char)) :
    (Text.join '/' (dropVoidEnd pieces)).length ≤ (Text.join '/' pieces).length := by
  induction pieces with
  | nil => simp [dropVoidEnd]
  | cons piece pieces ih =>
      unfold dropVoidEnd
      split
      · split
        · simp [Text.join]
        · rw [length_join_cons, length_join_cons]
          simp
      · rename_i kept hkept
        rw [length_join_cons, length_join_cons]
        have hpieces : pieces ≠ [] := by
          intro h
          apply hkept
          simp [h, dropVoidEnd]
        rw [if_neg hkept, if_neg hpieces]
        omega

private theorem dropVoidEnd_ends_named (pieces : List (List Char)) (h : dropVoidEnd pieces ≠ []) :
    (Text.join '/' (dropVoidEnd pieces).dropLast).length <
      (Text.join '/' (dropVoidEnd pieces)).length := by
  induction pieces with
  | nil => exact absurd rfl h
  | cons piece pieces ih =>
      unfold dropVoidEnd at h ⊢
      split
      · rename_i hrest
        simp only [hrest] at h
        split
        · rename_i hvoid
          simp [hvoid] at h
        · rename_i hvoid
          cases piece with
          | nil => simp [isVoid] at hvoid
          | cons c more => simp [Text.join]
      · rename_i kept hkept
        have hlt := ih hkept
        cases hd : dropVoidEnd pieces with
        | nil => exact absurd hd hkept
        | cons first more =>
            rw [hd] at hlt
            rw [List.dropLast_cons_cons, length_join_cons, length_join_cons]
            rw [if_neg (List.cons_ne_nil first more)]
            split <;> omega

private theorem length_leadChars_le (s : List Char) : (leadChars s).length ≤ s.length := by
  unfold leadChars
  split <;> simp

private theorem length_lead_add_body (s : List Char) :
    (leadChars s).length + (Text.join '/' (bodyPieces s)).length = s.length := by
  unfold bodyPieces
  rw [join_split, List.length_drop]
  have hlead := length_leadChars_le s
  omega

/-- A parent's text is shorter. -/
theorem parent?_length_lt {path above : Path} (h : path.parent? = some above) :
    above.text.length < path.text.length := by
  unfold parent? at h
  simp only at h
  have hsum := length_lead_add_body path.text.toList
  have hle := length_join_dropVoidEnd_le (bodyPieces path.text.toList)
  split at h
  · split at h
    · rename_i hlead
      cases h
      rw [hlead, String.length_toList] at hsum
      simp only [List.length_singleton] at hsum
      simp only [String.length_empty]
      omega
    · cases h
  · rename_i hkept
    cases h
    have hlt := dropVoidEnd_ends_named (bodyPieces path.text.toList) hkept
    have hdrop := length_join_dropVoidEnd_le (dropVoidEnd (bodyPieces path.text.toList)).dropLast
    rw [String.length_toList] at hsum
    simp only [String.length_ofList, List.length_append]
    omega

/-- The path and all directories above it that have a name, nearest first. -/
def ancestors (path : Path) : List Path :=
  match _h : path.parent? with
  | none => [path]
  | some above => if above.text = "" then [path] else path :: above.ancestors
termination_by path.text.length
decreasing_by exact parent?_length_lt (by assumption)

end WebComponents.Path
