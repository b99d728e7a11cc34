import Mathlib.Data.List.TakeWhile
import WebComponents.Proofs.Text.Words
import WebComponents.Text.Blank

/-!
# Blanks at the ends of a text

Blanks are taken from the ends of a text only.  Characters that are not blank stay, and so does all
that stands between them: of a text in two parts, the first part is kept as it is if the second one
is not blank (`dropEndWhile_append`), and the other way round (`trimStart_append`).  The texts that
are left as they are have no blank at either end (`trim_eq_self_iff`).

So where lines that are not blank are joined, only the last of them can lose blanks at the end of
the text (`trimEnd_join`).
-/

namespace WebComponents.Text

variable {s rest : List Char} {c : Char} {drops : Char → Bool} {lines : List (List Char)}

/-! ## The end of a text -/

theorem dropEndWhile_cons_of_neg (h : drops c = false) (rest : List Char) :
    dropEndWhile drops (c :: rest) = c :: dropEndWhile drops rest := by
  rw [dropEndWhile]
  split
  · next hnil => rw [hnil, if_neg (by simp [h])]
  · rfl

theorem dropEndWhile_cons_of_pos (h : drops c = true) (rest : List Char) :
    dropEndWhile drops (c :: rest) = if dropEndWhile drops rest = [] then [] else
      c :: dropEndWhile drops rest := by
  rw [dropEndWhile]
  split
  · next hnil => rw [if_pos h, if_pos hnil]
  · next hne => rw [if_neg hne]

theorem dropEndWhile_eq_self (h : ∀ c ∈ s, drops c = false) : dropEndWhile drops s = s := by
  induction s with
  | nil => rfl
  | cons c s ih =>
      obtain ⟨hc, hs⟩ := List.forall_mem_cons.mp h
      rw [dropEndWhile_cons_of_neg hc, ih hs]

theorem dropEndWhile_prefix_self (drops : Char → Bool) (s : List Char) :
    dropEndWhile drops s <+: s := by
  induction s with
  | nil => exact List.prefix_rfl
  | cons c s ih =>
      rw [dropEndWhile]
      split
      · split
        · exact List.nil_prefix
        · exact List.cons_prefix_cons.mpr ⟨rfl, List.nil_prefix⟩
      · exact List.cons_prefix_cons.mpr ⟨rfl, ih⟩

theorem dropEndWhile_eq_nil_iff : dropEndWhile drops s = [] ↔ ∀ c ∈ s, drops c = true := by
  induction s with
  | nil => simp [dropEndWhile]
  | cons c s ih =>
      rw [List.forall_mem_cons]
      cases hc : drops c with
      | true => rw [dropEndWhile_cons_of_pos hc, ← ih]; simp
      | false => rw [dropEndWhile_cons_of_neg hc]; simp

/-- What stands before a character that stays is kept. -/
theorem dropEndWhile_append (h : ∃ c ∈ rest, drops c = false) (s : List Char) :
    dropEndWhile drops (s ++ rest) = s ++ dropEndWhile drops rest := by
  induction s with
  | nil => rfl
  | cons c s ih =>
      have hne : dropEndWhile drops (s ++ rest) ≠ [] := by
        obtain ⟨d, hd, hkept⟩ := h
        rw [Ne, dropEndWhile_eq_nil_iff]
        intro hall
        simpa [hkept] using hall d (List.mem_append_right s hd)
      rw [List.cons_append, List.cons_append, ← ih]
      cases hc : drops c with
      | true => rw [dropEndWhile_cons_of_pos hc, if_neg hne]
      | false => rw [dropEndWhile_cons_of_neg hc]

theorem dropEndWhile_concat (h : drops c = true) (s : List Char) :
    dropEndWhile drops (s ++ [c]) = dropEndWhile drops s := by
  induction s with
  | nil => rw [List.nil_append, dropEndWhile_cons_of_pos h]; rfl
  | cons d s ih =>
      rw [List.cons_append]
      cases hd : drops d with
      | true => rw [dropEndWhile_cons_of_pos hd, dropEndWhile_cons_of_pos hd, ih]
      | false => rw [dropEndWhile_cons_of_neg hd, dropEndWhile_cons_of_neg hd, ih]

/-- What is left ends with a character that stays. -/
theorem getLast?_dropEndWhile (drops : Char → Bool) (s : List Char) :
    ∀ c ∈ (dropEndWhile drops s).getLast?, drops c = false := by
  induction s with
  | nil => exact nofun
  | cons c s ih =>
      cases hc : drops c with
      | true =>
          rw [dropEndWhile_cons_of_pos hc]
          split
          · exact nofun
          · next hne => rwa [List.getLast?_cons_of_ne_nil hne]
      | false =>
          rw [dropEndWhile_cons_of_neg hc, List.getLast?_cons]
          cases hlast : (dropEndWhile drops s).getLast? with
          | none => simpa using hc
          | some last =>
              rw [hlast] at ih
              simpa using ih

theorem dropEndWhile_of_getLast? (h : ∀ c ∈ s.getLast?, drops c = false) :
    dropEndWhile drops s = s := by
  rcases List.eq_nil_or_concat s with rfl | ⟨front, last, rfl⟩
  · rfl
  · have hlast : ∀ c ∈ [last], drops c = false := by simpa using h
    rw [List.concat_eq_append, dropEndWhile_append ⟨last, by simp, hlast last (by simp)⟩,
      dropEndWhile_eq_self hlast]

/-! ## The start of a text -/

theorem trimStart_cons (h : isBlank c = false) (rest : List Char) :
    trimStart (c :: rest) = c :: rest :=
  List.dropWhile_cons_of_neg (by simp [h])

theorem trimStart_of_blank (h : ∀ c ∈ s, isBlank c = true) (rest : List Char) :
    trimStart (s ++ rest) = trimStart rest :=
  List.dropWhile_append_of_pos h

/-- What is not blank is not trimmed. -/
theorem exists_mem_trimStart (h : ∃ c ∈ s, isBlank c = false) :
    ∃ c ∈ trimStart s, isBlank c = false := by
  obtain ⟨c, hc, hkept⟩ := h
  rw [← List.takeWhile_append_dropWhile (p := isBlank) (l := s), List.mem_append] at hc
  rcases hc with hblank | hc
  · exact absurd (List.mem_takeWhile_imp hblank) (by simp [hkept])
  · exact ⟨c, hc, hkept⟩

/-- What stands after a character that stays is kept. -/
theorem trimStart_append (h : ∃ c ∈ s, isBlank c = false) (rest : List Char) :
    trimStart (s ++ rest) = trimStart s ++ rest := by
  have hne : trimStart s ≠ [] := by
    obtain ⟨c, hc, -⟩ := exists_mem_trimStart h
    exact List.ne_nil_of_mem hc
  rw [trimStart, List.dropWhile_append]
  exact if_neg (mt List.isEmpty_iff.mp hne)

/-! ## Both ends -/

/-- A text without blanks has none at its ends. -/
theorem trim_eq_self (h : ∀ c ∈ s, isBlank c = false) : trim s = s := by
  have hstart : trimStart s = s := by
    cases s with
    | nil => rfl
    | cons c s => exact trimStart_cons (h c List.mem_cons_self) s
  rw [trim, hstart, trimEnd, dropEndWhile_eq_self h]

theorem mem_of_mem_trim (h : c ∈ trim s) : c ∈ s :=
  (List.dropWhile_suffix isBlank).mem ((dropEndWhile_prefix_self isBlank _).mem h)

theorem isBlank_head?_trim (s : List Char) : ∀ c ∈ (trim s).head?, isBlank c = false := by
  intro c hc
  obtain ⟨rest, hrest⟩ := dropEndWhile_prefix_self isBlank (trimStart s)
  have hhead : (trimStart s).head? = some c := by
    rw [← hrest, List.head?_append]
    exact Option.or_eq_some_iff.mpr (Or.inl hc)
  have hstart := List.head?_dropWhile_not isBlank s
  rw [trimStart] at hhead
  simpa [hhead] using hstart

/-- The texts that trimming leaves as they are have no blank at either end. -/
theorem trim_eq_self_iff :
    trim s = s ↔ (∀ c ∈ s.head?, isBlank c = false) ∧ ∀ c ∈ s.getLast?, isBlank c = false := by
  constructor
  · intro h
    rw [← h]
    exact ⟨isBlank_head?_trim s, getLast?_dropEndWhile isBlank (trimStart s)⟩
  · rintro ⟨hhead, hlast⟩
    have hstart : trimStart s = s := by
      cases s with
      | nil => rfl
      | cons c s => exact trimStart_cons (hhead c rfl) s
    rw [trim, hstart, trimEnd, dropEndWhile_of_getLast? hlast]

theorem trim_trim (s : List Char) : trim (trim s) = trim s :=
  trim_eq_self_iff.mpr ⟨isBlank_head?_trim s, getLast?_dropEndWhile isBlank (trimStart s)⟩

/-! ## Joined lines -/

/-- The lines with no blanks at the end of the last one; without lines there is an empty one. -/
def trimLast : List (List Char) → List (List Char)
  | [] => [[]]
  | [line] => [trimEnd line]
  | line :: next :: lines => line :: trimLast (next :: lines)

theorem trimLast_ne_nil (lines : List (List Char)) : trimLast lines ≠ [] := by
  cases lines with
  | nil => exact List.cons_ne_nil _ _
  | cons line lines => cases lines <;> exact List.cons_ne_nil _ _

/-- The characters left are characters of the lines. -/
theorem mem_of_mem_trimLast {line : List Char} (hline : line ∈ trimLast lines) (hc : c ∈ line) :
    ∃ whole ∈ lines, c ∈ whole := by
  induction lines with
  | nil =>
      rw [List.mem_singleton.mp hline] at hc
      cases hc
  | cons first lines ih =>
      cases lines with
      | nil =>
          rw [List.mem_singleton.mp hline] at hc
          exact ⟨first, List.mem_cons_self, (dropEndWhile_prefix_self isBlank first).mem hc⟩
      | cons next lines =>
          rcases List.mem_cons.mp hline with rfl | hlater
          · exact ⟨line, List.mem_cons_self, hc⟩
          · obtain ⟨whole, hwhole, hc⟩ := ih hlater
            exact ⟨whole, List.mem_cons_of_mem _ hwhole, hc⟩

/-- Only the last of some lines that are not blank is touched when their text is trimmed. -/
theorem trimEnd_join (h : ∀ line ∈ lines, ∃ c ∈ line, isBlank c = false) (sep : Char) :
    trimEnd (join sep lines) = join sep (trimLast lines) := by
  induction lines with
  | nil => rfl
  | cons line lines ih =>
      obtain ⟨-, hlines⟩ := List.forall_mem_cons.mp h
      cases lines with
      | nil => rfl
      | cons next lines =>
          have hnext : ∃ c ∈ join sep (next :: lines), isBlank c = false := by
            obtain ⟨c, hc, hkept⟩ := hlines next List.mem_cons_self
            rw [join_cons]
            exact ⟨c, List.mem_append_left _ hc, hkept⟩
          calc trimEnd (join sep (line :: next :: lines))
              = trimEnd (line ++ [sep] ++ join sep (next :: lines)) := by
                rw [join_cons_of_ne_nil sep line (List.cons_ne_nil _ _), List.append_assoc]
                rfl
            _ = line ++ [sep] ++ trimEnd (join sep (next :: lines)) := dropEndWhile_append hnext _
            _ = line ++ sep :: join sep (trimLast (next :: lines)) := by
                rw [ih hlines, List.append_assoc]
                rfl
            _ = join sep (trimLast (line :: next :: lines)) :=
                (join_cons_of_ne_nil sep line (trimLast_ne_nil _)).symm

end WebComponents.Text
