import Mathlib.Data.List.Basic
import WebComponents.Text.Pieces

/-!
# The words between separators

A text is cut into words, something is done to each word, and the results are run together.  Cutting
in two rounds, first at one kind of separator and then at another, is cutting once at both
(`flatMap_split`).  So it does not matter if the words of the first round are joined again by a
separator of the second, nor if empty words are dropped on the way (`flatMap_split_join_words`).
-/

namespace WebComponents.Text

variable {α : Type} {separates later : Char → Bool} {sep c : Char} {s rest : List Char}
  {pieces : List (List Char)} {f : List Char → List α}

/-! ## One character more -/

theorem split_cons_of_separates (separates : Char → Bool) (h : separates c = true)
    (rest : List Char) : split separates (c :: rest) = [] :: split separates rest := by
  rw [split, if_pos h]

theorem exists_split_cons (separates : Char → Bool) (h : separates c = false) (rest : List Char) :
    ∃ piece pieces, split separates rest = piece :: pieces ∧
      split separates (c :: rest) = (c :: piece) :: pieces := by
  obtain ⟨piece, pieces, hrest⟩ := List.exists_cons_of_ne_nil (split_ne_nil separates rest)
  refine ⟨piece, pieces, hrest, ?_⟩
  rw [split, if_neg (by simp [h]), hrest]

theorem split_congr (h : ∀ c ∈ s, separates c = later c) : split separates s = split later s := by
  induction s with
  | nil => rfl
  | cons c s ih =>
      obtain ⟨hc, hs⟩ := List.forall_mem_cons.mp h
      rw [split, split, hc, ih hs]

theorem split_map (separates : Char → Bool) (g : Char → Char) (s : List Char) :
    split separates (s.map g) = (split (fun c => separates (g c)) s).map (List.map g) := by
  induction s with
  | nil => rfl
  | cons c s ih =>
      rw [List.map_cons]
      cases hc : separates (g c) with
      | true =>
          rw [split_cons_of_separates _ hc, ih,
            split_cons_of_separates (fun c => separates (g c)) hc, List.map_cons, List.map_nil]
      | false =>
          obtain ⟨piece, pieces, hs, hcons⟩ :=
            exists_split_cons (fun c => separates (g c)) hc s
          obtain ⟨image, images, himage, hcons'⟩ := exists_split_cons separates hc (s.map g)
          rw [himage, hs, List.map_cons, List.cons.injEq] at ih
          rw [hcons', hcons, ih.1, ih.2, List.map_cons, List.map_cons]

theorem length_split (separates : Char → Bool) (s : List Char) :
    (split separates s).length = s.countP separates + 1 := by
  induction s with
  | nil => rfl
  | cons c s ih =>
      cases hc : separates c with
      | true =>
          rw [split_cons_of_separates _ hc, List.length_cons, ih, List.countP_cons_of_pos hc]
      | false =>
          obtain ⟨piece, pieces, hs, hcons⟩ := exists_split_cons _ hc s
          rw [hs, List.length_cons] at ih
          rw [hcons, List.length_cons, ih, List.countP_cons_of_neg (by simp [hc])]

/-- The characters of the pieces are those of the text that do not separate. -/
theorem forall_mem_split_iff {motive : Char → Prop} :
    (∀ piece ∈ split separates s, ∀ c ∈ piece, motive c) ↔
      ∀ c ∈ s, separates c = false → motive c := by
  induction s with
  | nil => simp [split]
  | cons c s ih =>
      cases hc : separates c with
      | true =>
          rw [split_cons_of_separates _ hc, List.forall_mem_cons, List.forall_mem_cons, ih]
          simp [hc]
      | false =>
          obtain ⟨piece, pieces, hs, hcons⟩ := exists_split_cons _ hc s
          rw [hs, List.forall_mem_cons] at ih
          rw [hcons, List.forall_mem_cons, List.forall_mem_cons, List.forall_mem_cons, and_assoc,
            ih]
          simp [hc]

/-- The characters of a piece are characters of the text. -/
theorem mem_of_mem_split {piece : List Char} (hpiece : piece ∈ split separates s) (hc : c ∈ piece) :
    c ∈ s :=
  forall_mem_split_iff.mpr (fun _ hmem _ => hmem) piece hpiece c hc

/-- No piece holds a character that separates. -/
theorem eq_false_of_mem_split {piece : List Char} (hpiece : piece ∈ split separates s)
    (hc : c ∈ piece) : separates c = false :=
  forall_mem_split_iff.mpr (fun _ _ hfalse => hfalse) piece hpiece c hc

/-! ## Empty words -/

theorem head?_split_eq_nil_iff (sep : Char) (s : List Char) :
    (split (· == sep) s).head? = some [] ↔ s = [] ∨ s.head? = some sep := by
  cases s with
  | nil => simp [split]
  | cons c s =>
      cases hc : c == sep with
      | true =>
          rw [split_cons_of_separates (· == sep) hc]
          simpa using hc
      | false =>
          obtain ⟨piece, pieces, -, hcons⟩ := exists_split_cons (· == sep) hc s
          rw [hcons]
          simpa using hc

theorem occursIn_pair_cons (sep c : Char) (s : List Char) :
    occursIn [sep, sep] (c :: s) = false ↔
      ¬ (c = sep ∧ s.head? = some sep) ∧ occursIn [sep, sep] s = false := by
  rw [occursIn, Bool.or_eq_false_iff]
  refine and_congr_left fun _ => ?_
  cases s with
  | nil => simp [List.isPrefixOf]
  | cons d s =>
      rw [eq_comm (a := c), List.head?_cons, Option.some_inj, eq_comm (a := d)]
      simp [List.isPrefixOf]

/-- An empty word after the first lies between two separators or after the last one. -/
theorem forall_tail_split_iff (sep : Char) (s : List Char) :
    (∀ piece ∈ (split (· == sep) s).tail, piece ≠ []) ↔
      occursIn [sep, sep] s = false ∧ s.getLast? ≠ some sep := by
  induction s with
  | nil => simp [split, occursIn]
  | cons c s ih =>
      rw [occursIn_pair_cons]
      cases hc : c == sep with
      | true =>
          obtain rfl : c = sep := by simpa using hc
          have hfirst := head?_split_eq_nil_iff c s
          rw [split_cons_of_separates (· == c) hc, List.tail_cons]
          obtain ⟨piece, pieces, hs⟩ := List.exists_cons_of_ne_nil (split_ne_nil (· == c) s)
          rw [hs, List.head?_cons, Option.some_inj] at hfirst
          rw [hs, List.tail_cons] at ih
          rw [hs, List.forall_mem_cons, ih, Ne, hfirst]
          cases s with
          | nil => simp
          | cons d s =>
              rw [List.getLast?_cons_cons]
              simp [and_assoc]
      | false =>
          have hne : c ≠ sep := by simpa using hc
          obtain ⟨piece, pieces, hs, hcons⟩ := exists_split_cons (· == sep) hc s
          rw [hs, List.tail_cons] at ih
          rw [hcons, List.tail_cons, ih]
          cases s with
          | nil => simp [hne, occursIn]
          | cons d s => simp [hne]

/-- No word is empty if separators stand neither at an end nor next to each other. -/
theorem forall_split_ne_nil_iff (sep : Char) (s : List Char) :
    (∀ piece ∈ split (· == sep) s, piece ≠ []) ↔
      s ≠ [] ∧ occursIn [sep, sep] s = false ∧ s.head? ≠ some sep ∧ s.getLast? ≠ some sep := by
  have hfirst := head?_split_eq_nil_iff sep s
  have hlater := forall_tail_split_iff sep s
  obtain ⟨piece, pieces, hs⟩ := List.exists_cons_of_ne_nil (split_ne_nil (· == sep) s)
  rw [hs, List.head?_cons, Option.some_inj] at hfirst
  rw [hs, List.tail_cons] at hlater
  rw [hs, List.forall_mem_cons, hlater, Ne, hfirst, not_or]
  tauto

theorem two_le_length_split_iff (sep : Char) (s : List Char) :
    2 ≤ (split (· == sep) s).length ↔ sep ∈ s := by
  rw [length_split, Nat.succ_le_succ_iff, Nat.one_le_iff_ne_zero, ← Nat.pos_iff_ne_zero,
    List.countP_pos_iff]
  simp

/-! ## Two rounds -/

/-- Cutting the pieces again is cutting once at both kinds of separators. -/
theorem flatMap_split (separates later : Char → Bool) (s : List Char) :
    (split separates s).flatMap (split later) = split (fun c => separates c || later c) s := by
  set both : Char → Bool := fun c => separates c || later c with hboth
  induction s with
  | nil => rfl
  | cons c s ih =>
      cases hc : separates c with
      | true =>
          rw [split_cons_of_separates _ hc, List.flatMap_cons, ih,
            split_cons_of_separates both (by simp [hboth, hc])]
          rfl
      | false =>
          obtain ⟨piece, pieces, hs, hcons⟩ := exists_split_cons _ hc s
          rw [hs, List.flatMap_cons] at ih
          rw [hcons, List.flatMap_cons]
          cases hlater : later c with
          | true =>
              rw [split_cons_of_separates _ hlater,
                split_cons_of_separates both (by simp [hboth, hlater]), ← ih, List.cons_append]
          | false =>
              -- the first word of the rest grows by the character, in both rounds
              obtain ⟨first, more, hpiece, hpiece'⟩ := exists_split_cons _ hlater piece
              have hneither : both c = false := by simp [hboth, hc, hlater]
              obtain ⟨next, words, hwords, hwords'⟩ := exists_split_cons both hneither s
              rw [hpiece, hwords, List.cons_append, List.cons.injEq] at ih
              rw [hpiece', hwords', List.cons_append, ih.1, ih.2]

/-- Joined pieces are cut one after the other. -/
theorem split_join (h : later sep = true) (hne : pieces ≠ []) :
    split later (join sep pieces) = pieces.flatMap (split later) := by
  induction pieces with
  | nil => exact absurd rfl hne
  | cons piece pieces ih =>
      cases pieces with
      | nil => exact (List.append_nil _).symm
      | cons next pieces =>
          change split later (piece ++ sep :: join sep (next :: pieces)) = _
          rw [split_append_cons _ _ _ h, ih (List.cons_ne_nil _ _)]
          rfl

/-- Pieces without the separator come back. -/
theorem split_join_eq_self (hne : pieces ≠ []) (h : ∀ piece ∈ pieces, sep ∉ piece) :
    split (· == sep) (join sep pieces) = pieces := by
  have hsep : (fun c => c == sep) sep = true := beq_self_eq_true sep
  calc split (· == sep) (join sep pieces)
      = pieces.flatMap (split (· == sep)) := split_join hsep hne
    _ = pieces.flatMap fun piece => [piece] :=
        List.flatMap_congr fun piece hpiece => split_eq_singleton (h piece hpiece)
    _ = pieces := List.flatMap_singleton' pieces

/-! ## Joined pieces -/

/-- A separator stands before each piece but the first. -/
theorem join_cons (sep : Char) (piece : List Char) (pieces : List (List Char)) :
    join sep (piece :: pieces) = piece ++ pieces.flatMap fun next => sep :: next := by
  induction pieces generalizing piece with
  | nil => simp [join]
  | cons next pieces ih =>
      rw [List.flatMap_cons, List.cons_append, ← ih]
      rfl

theorem join_cons_of_ne_nil (sep : Char) (piece : List Char) (h : pieces ≠ []) :
    join sep (piece :: pieces) = piece ++ sep :: join sep pieces := by
  cases pieces with
  | nil => exact absurd rfl h
  | cons next pieces => rfl

theorem join_append (sep : Char) {more : List (List Char)} (hne : pieces ≠ []) (hmore : more ≠ []) :
    join sep (pieces ++ more) = join sep pieces ++ sep :: join sep more := by
  cases pieces with
  | nil => exact absurd rfl hne
  | cons piece pieces =>
      cases more with
      | nil => exact absurd rfl hmore
      | cons next more => simp [join_cons]

/-- The characters of a joined text are those of the pieces and the separator. -/
theorem mem_join (h : c ∈ join sep pieces) : c = sep ∨ ∃ piece ∈ pieces, c ∈ piece := by
  cases pieces with
  | nil => cases h
  | cons piece pieces =>
      rw [join_cons, List.mem_append, List.mem_flatMap] at h
      rcases h with hpiece | ⟨next, hnext, hc⟩
      · exact Or.inr ⟨piece, List.mem_cons_self, hpiece⟩
      · rcases List.mem_cons.mp hc with rfl | hc
        · exact Or.inl rfl
        · exact Or.inr ⟨next, List.mem_cons_of_mem _ hnext, hc⟩

/-- Cutting at one character and joining with another replaces it. -/
theorem join_split_eq_map (old new : Char) (s : List Char) :
    join new (split (· == old) s) = s.map fun c => if c = old then new else c := by
  induction s with
  | nil => rfl
  | cons c s ih =>
      obtain ⟨piece, pieces, hsplit⟩ := List.exists_cons_of_ne_nil (split_ne_nil (· == old) s)
      rw [List.map_cons, ← ih]
      cases hc : c == old with
      | true =>
          rw [split_cons_of_separates (· == old) hc, if_pos (by simpa using hc), hsplit]
          rfl
      | false =>
          obtain ⟨piece, pieces, hs, hcons⟩ := exists_split_cons (· == old) hc s
          rw [hcons, hs, if_neg (by simpa using hc)]
          cases pieces <;> rfl

/-! ## Words run together -/

theorem flatMap_filter_nonempty (hf : f [] = []) (pieces : List (List Char)) :
    (pieces.filter fun piece => !piece.isEmpty).flatMap f = pieces.flatMap f := by
  induction pieces with
  | nil => rfl
  | cons piece pieces ih =>
      cases piece with
      | nil => simpa [hf] using ih
      | cons c piece => simp [ih]

theorem flatMap_split_cons (hf : f [] = []) (h : separates c = true) (rest : List Char) :
    (split separates (c :: rest)).flatMap f = (split separates rest).flatMap f := by
  rw [split_cons_of_separates _ h, List.flatMap_cons, hf, List.nil_append]

theorem flatMap_split_join (hf : f [] = []) (h : later sep = true) (pieces : List (List Char)) :
    (split later (join sep pieces)).flatMap f = (pieces.flatMap (split later)).flatMap f := by
  cases pieces with
  | nil =>
      change f [] ++ [] = []
      rw [hf, List.append_nil]
  | cons piece pieces => rw [split_join h (List.cons_ne_nil _ _)]

/-- Words that were found at one kind of separator and joined by another are the words between both
kinds, provided that nothing comes of an empty word. -/
theorem flatMap_split_join_words (hf : f [] = []) (h : later sep = true) (s : List Char) :
    (split later (join sep ((split separates s).filter fun word => !word.isEmpty))).flatMap f =
      (split (fun c => separates c || later c) s).flatMap f := by
  have hempty : (split later []).flatMap f = [] := by
    change f [] ++ [] = []
    rw [hf, List.append_nil]
  calc (split later (join sep ((split separates s).filter fun word => !word.isEmpty))).flatMap f
      = ((split separates s).filter fun word => !word.isEmpty).flatMap
          fun word => (split later word).flatMap f := by
        rw [flatMap_split_join hf h, List.flatMap_assoc]
    _ = (split separates s).flatMap fun word => (split later word).flatMap f :=
        flatMap_filter_nonempty hempty _
    _ = (split (fun c => separates c || later c) s).flatMap f := by
        rw [← List.flatMap_assoc, flatMap_split]

end WebComponents.Text
