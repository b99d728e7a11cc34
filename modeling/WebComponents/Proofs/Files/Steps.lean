import Mathlib.Data.List.Basic
import WebComponents.Files.FileTree
import WebComponents.Path.Segments
import WebComponents.Proofs.Text.Words

/-!
# The steps of a path and of its parent

The system reads the text of a path as steps, the program reads it as segments, and the parent of a
path is a shorter text.  This file brings the three together:

* `entrySteps_join`: a name that is joined to a path is one more step at the end;
* `entrySteps_parent`: the steps of a path are those of its parent, then some `.`, then the last
  step that is not a `.`, and then again some `.`;
* `startOf_parent`: both are read in the same directory;
* `segments_of_parent?`: the path has one segment more than its parent, and only the root and the
  empty path have no parent (`segments_of_parent?_eq_none`).
-/

namespace WebComponents.Files.FileTree

open Text WebComponents.Path

/-! ## Pieces -/

/-- The steps that pieces of a text stand for; an empty piece is none. -/
def pieceSteps (pieces : List (List Char)) : List Step :=
  (pieces.filter fun piece => !piece.isEmpty).map stepOf

theorem pieceSteps_append (pieces more : List (List Char)) :
    pieceSteps (pieces ++ more) = pieceSteps pieces ++ pieceSteps more := by
  simp [pieceSteps]

theorem pieceSteps_nil_cons (pieces : List (List Char)) :
    pieceSteps ([] :: pieces) = pieceSteps pieces := by
  simp [pieceSteps]

theorem pieceSteps_singleton {piece : List Char} (h : piece ≠ []) :
    pieceSteps [piece] = [stepOf piece] := by
  simp [pieceSteps, h]

theorem pieceSteps_of_void {pieces : List (List Char)} (h : ∀ piece ∈ pieces, isVoid piece = true) :
    ∀ step ∈ pieceSteps pieces, step = .stay := by
  intro step hstep
  obtain ⟨piece, hpiece, rfl⟩ := List.mem_map.mp hstep
  obtain ⟨hmem, hne⟩ := List.mem_filter.mp hpiece
  have hvoid := h piece hmem
  have hdot : piece = ['.'] := by simp_all [isVoid]
  rw [hdot]
  rfl

theorem stepOf_ne_stay {piece : List Char} (h : isVoid piece = false) : stepOf piece ≠ .stay := by
  have hdot : piece ≠ ['.'] := by
    rintro rfl
    exact absurd h (by decide)
  unfold stepOf
  rw [if_neg hdot]
  split <;> exact nofun

theorem stepOf_ne_slash (piece : List Char) : stepOf piece ≠ .slash := by
  unfold stepOf
  split
  · exact nofun
  · split <;> exact nofun

theorem pieceSteps_split_join {pieces : List (List Char)}
    (hslash : ∀ piece ∈ pieces, '/' ∉ piece) :
    pieceSteps (split (· == '/') (join '/' pieces)) = pieceSteps pieces := by
  by_cases hne : pieces = []
  · rw [hne]
    rfl
  · rw [split_join_eq_self hne hslash]

/-! ## Steps of a path -/

theorem entrySteps_eq (path : Path) :
    entrySteps path = pieceSteps (split (· == '/') path.text.toList) := by
  have hkeep : (pieceSteps (split (· == '/') path.text.toList)).filter (· ≠ .slash) =
      pieceSteps (split (· == '/') path.text.toList) := by
    refine List.filter_eq_self.mpr fun step hstep => ?_
    obtain ⟨piece, _, rfl⟩ := List.mem_map.mp hstep
    simpa using stepOf_ne_slash piece
  unfold entrySteps stepsOf
  rw [pieceSteps] at hkeep ⊢
  simp only
  split
  · split
    · rw [List.filter_append, hkeep]
      exact List.append_nil _
    · exact hkeep
  · exact hkeep

/-- The system takes a slash at the end as one more step. -/
theorem stepsOf_eq_or (path : Path) :
    stepsOf path.text.toList = entrySteps path ∨
      stepsOf path.text.toList = entrySteps path ++ [.slash] := by
  rw [entrySteps_eq]
  unfold stepsOf
  simp only
  split
  · split
    · exact Or.inr rfl
    · exact Or.inl rfl
  · exact Or.inl rfl

theorem stepsOf_of_getLast? {path : Path} (h : path.text.toList.getLast? ≠ some '/') :
    stepsOf path.text.toList = entrySteps path := by
  rw [entrySteps_eq]
  unfold stepsOf
  simp only [if_neg h]
  split <;> rfl

theorem stepOf_name {text : String} (h : IsName text) : stepOf text.toList = .name text := by
  unfold stepOf
  rw [if_neg h.2.2.1, if_neg h.2.2.2, String.ofList_toList]

theorem isAbsolute_name {text : String} (h : IsName text) : (Path.mk text).isAbsolute = false := by
  simp only [isAbsolute, beq_eq_false_iff_ne, ne_eq]
  exact fun hhead => h.2.1 (List.mem_of_mem_head? hhead)

theorem startOf_join (tree : FileTree) (base : Path) {text : String} (h : IsName text) :
    tree.startOf (base.join ⟨text⟩) = tree.startOf base := by
  have habsolute : (base.join ⟨text⟩).isAbsolute = base.isAbsolute := by
    unfold Path.join
    rw [isAbsolute_name h]
    by_cases hempty : base.text = ""
    · have hbase : base.isAbsolute = false := by simp [isAbsolute, hempty]
      rw [hbase]
      simpa [hempty] using isAbsolute_name h
    · have hne : base.text.toList ≠ [] := by simpa [String.toList_eq_nil_iff] using hempty
      simp only [Bool.false_eq_true, ↓reduceIte]
      split <;> simp [isAbsolute, List.head?_append_of_ne_nil _ hne]
  unfold startOf
  rw [habsolute]

theorem entrySteps_name {text : String} (h : IsName text) :
    entrySteps ⟨text⟩ = [.name text] := by
  rw [entrySteps_eq, split_eq_singleton h.2.1, pieceSteps_singleton h.1, stepOf_name h]

/-- A joined path goes on, from where the base leads, with the steps of the second path. -/
theorem entrySteps_join_of_relative (base : Path) {path : Path} (h : path.isAbsolute = false) :
    entrySteps (base.join path) = entrySteps base ++ entrySteps path := by
  rw [entrySteps_eq, entrySteps_eq, entrySteps_eq]
  unfold Path.join
  simp only [h, Bool.false_eq_true, ↓reduceIte]
  by_cases hempty : base.text = ""
  · rw [if_pos (by simp [hempty]), hempty, String.empty_append]
    rfl
  have hbase : base.text.isEmpty = false := by simpa [String.isEmpty_iff] using hempty
  by_cases hslash : base.endsWithSlash = true
  · obtain ⟨s, hs⟩ : ∃ s, base.text.toList = s ++ ['/'] :=
      List.getLast?_eq_some_iff.mp (by simpa [endsWithSlash] using hslash)
    have hbaseSteps : pieceSteps (split (· == '/') (s ++ ['/'])) =
        pieceSteps (split (· == '/') s) := by
      rw [split_append_cons _ _ _ (by rfl), pieceSteps_append]
      exact List.append_nil _
    simp only [hslash, Bool.or_true, ↓reduceIte, String.toList_append]
    rw [hs, hbaseSteps, List.append_assoc, List.singleton_append,
      split_append_cons _ _ _ (by rfl), pieceSteps_append]
  · simp only [hbase, hslash, Bool.or_self, Bool.false_eq_true, ↓reduceIte, String.toList_append]
    rw [List.append_assoc]
    change pieceSteps (split (· == '/') (base.text.toList ++ '/' :: path.text.toList)) = _
    rw [split_append_cons _ _ _ (by rfl), pieceSteps_append]

theorem entrySteps_join (base : Path) {text : String} (h : IsName text) :
    entrySteps (base.join ⟨text⟩) = entrySteps base ++ [.name text] := by
  rw [entrySteps_join_of_relative base (isAbsolute_name h), entrySteps_name h]

/-! ## Steps of the parent -/

/-- What `dropVoidEnd` drops is void. -/
theorem exists_dropVoidEnd_append (pieces : List (List Char)) :
    ∃ voids, pieces = dropVoidEnd pieces ++ voids ∧ ∀ piece ∈ voids, isVoid piece = true := by
  induction pieces with
  | nil => exact ⟨[], rfl, by simp⟩
  | cons piece pieces ih =>
      obtain ⟨voids, hpieces, hvoids⟩ := ih
      unfold dropVoidEnd
      split
      · rename_i hnil
        rw [hnil, List.nil_append] at hpieces
        split
        · rename_i hvoid
          refine ⟨piece :: voids, by rw [hpieces, List.nil_append], ?_⟩
          exact List.forall_mem_cons.mpr ⟨hvoid, hvoids⟩
        · exact ⟨voids, by rw [hpieces, List.singleton_append], hvoids⟩
      · exact ⟨voids, congrArg (piece :: ·) hpieces, hvoids⟩

/-- What it keeps ends with a piece that is not void. -/
theorem isVoid_getLast_dropVoidEnd {pieces front : List (List Char)} {last : List Char}
    (h : dropVoidEnd pieces = front ++ [last]) : isVoid last = false := by
  induction pieces generalizing front with
  | nil =>
      have hlength := congrArg List.length h
      simp [dropVoidEnd] at hlength
  | cons piece pieces ih =>
      unfold dropVoidEnd at h
      split at h
      · split at h
        · have hlength := congrArg List.length h
          simp at hlength
        · rename_i hvoid
          have hlast := congrArg List.getLast? h
          simp only [List.getLast?_singleton, List.getLast?_append, Option.some_or,
            Option.some_inj] at hlast
          rw [← hlast]
          simpa using hvoid
      · rename_i hkept
        cases front with
        | nil =>
            simp only [List.nil_append, List.cons.injEq] at h
            exact absurd h.2 hkept
        | cons first front =>
            simp only [List.cons_append, List.cons.injEq] at h
            exact ih h.2

theorem join_mono {pieces more : List (List Char)} (h : pieces <+: more) :
    join '/' pieces <+: join '/' more := by
  induction pieces generalizing more with
  | nil => exact List.nil_prefix
  | cons piece pieces ih =>
      obtain ⟨rest, rfl⟩ := h
      cases pieces with
      | nil =>
          cases rest with
          | nil => exact List.prefix_rfl
          | cons next rest => exact List.prefix_append _ _
      | cons next pieces =>
          have hmore : next :: pieces <+: next :: pieces ++ rest := List.prefix_append _ _
          have hrest := ih hmore
          change piece ++ '/' :: join '/' (next :: pieces) <+:
            piece ++ '/' :: join '/' (next :: pieces ++ rest)
          exact (List.prefix_append_right_inj piece).mpr ((List.prefix_cons_inj '/').mpr hrest)

/-- The steps that the lead of a text stands for. -/
def leadSteps (s : List Char) : List Step :=
  if leadChars s = ['.'] then [.stay] else []

/-- A text that is the lead and some of the pieces that follow it. -/
theorem pieceSteps_lead_append {s : List Char} {pieces : List (List Char)}
    (h : pieces <+: bodyPieces s) :
    pieceSteps (split (· == '/') (leadChars s ++ join '/' pieces)) =
      leadSteps s ++ pieceSteps pieces := by
  have hslash : ∀ piece ∈ pieces, '/' ∉ piece :=
    fun piece hpiece => not_mem_of_mem_split (h.subset hpiece)
  unfold bodyPieces at h
  unfold leadSteps
  fun_cases leadChars s with
  | case1 rest =>
      rw [if_neg (by decide)]
      change pieceSteps (split (· == '/') ([] ++ '/' :: join '/' pieces)) = _
      rw [split_append_cons _ _ _ (by rfl), pieceSteps_append, pieceSteps_split_join hslash]
      rfl
  | case2 =>
      obtain ⟨more, hmore⟩ := h
      rcases List.append_eq_singleton_iff.mp hmore with ⟨rfl, _⟩ | ⟨rfl, _⟩ <;> rfl
  | case3 rest =>
      -- the piece between the `.` and the slash after it is empty
      have hbody : split (· == '/') ('/' :: rest) = [] :: split (· == '/') rest := by simp [split]
      change pieces <+: split (· == '/') ('/' :: rest) at h
      rw [hbody] at h
      rw [if_pos rfl]
      rcases List.prefix_cons_iff.mp h with rfl | ⟨after, rfl, _⟩
      · rfl
      cases after with
      | nil => rfl
      | cons next after =>
          have hafter := pieceSteps_split_join (List.forall_mem_cons.mp hslash).2
          change pieceSteps (split (· == '/') (['.'] ++ '/' :: join '/' (next :: after))) = _
          rw [split_append_cons _ _ _ (by rfl), pieceSteps_append, hafter, pieceSteps_nil_cons]
          rfl
  | case4 hroot hdot hdotSlash =>
      rw [if_neg (by decide), List.nil_append, pieceSteps_split_join hslash, List.nil_append]

theorem leadChars_append_join_bodyPieces (s : List Char) :
    leadChars s ++ join '/' (bodyPieces s) = s := by
  rw [bodyPieces, join_split]
  fun_cases leadChars s <;> rfl

theorem entrySteps_eq_lead (path : Path) :
    entrySteps path =
      leadSteps path.text.toList ++ pieceSteps (bodyPieces path.text.toList) := by
  rw [entrySteps_eq, ← pieceSteps_lead_append List.prefix_rfl, leadChars_append_join_bodyPieces]

/-- How the text of the parent comes about: it is the lead and some of the pieces, after which the
path has one piece that is not void, or the path is a `.` and its parent is empty. -/
theorem parent?_cases {path above : Path} (h : path.parent? = some above) :
    ((∀ piece ∈ bodyPieces path.text.toList, isVoid piece = true) ∧
      leadChars path.text.toList = ['.'] ∧ above = ⟨""⟩) ∨
    ∃ kept between last after,
      bodyPieces path.text.toList = kept ++ between ++ last :: after ∧
        above.text.toList = leadChars path.text.toList ++ join '/' kept ∧
        (∀ piece ∈ between, isVoid piece = true) ∧ isVoid last = false ∧
        ∀ piece ∈ after, isVoid piece = true := by
  obtain ⟨after, hbody, hafter⟩ := exists_dropVoidEnd_append (bodyPieces path.text.toList)
  unfold parent? at h
  simp only at h
  split at h
  · rename_i hnil
    split at h
    · rename_i hlead
      cases h
      rw [hnil, List.nil_append] at hbody
      exact Or.inl ⟨hbody ▸ hafter, hlead, rfl⟩
    · cases h
  · rename_i hkept
    have hlast := (List.dropLast_append_getLast hkept).symm
    obtain ⟨between, hfront, hbetween⟩ :=
      exists_dropVoidEnd_append (dropVoidEnd (bodyPieces path.text.toList)).dropLast
    cases h
    refine Or.inr ⟨_, between, _, after, ?_, String.toList_ofList, hbetween,
      isVoid_getLast_dropVoidEnd hlast, hafter⟩
    rw [← hfront, List.append_cons, List.dropLast_append_getLast hkept]
    exact hbody

/-- The text of a parent that is not empty. -/
theorem exists_pieces_of_parent? {path above : Path} (h : path.parent? = some above)
    (hne : above.text ≠ "") :
    ∃ kept between last after,
      bodyPieces path.text.toList = kept ++ between ++ last :: after ∧
        above.text.toList = leadChars path.text.toList ++ join '/' kept ∧
        (∀ piece ∈ between, isVoid piece = true) ∧ isVoid last = false ∧
        ∀ piece ∈ after, isVoid piece = true := by
  rcases parent?_cases h with ⟨_, _, rfl⟩ | hpieces
  · exact absurd rfl hne
  · exact hpieces

/-- The steps of a path go on where those of its parent end. -/
theorem entrySteps_parent {path above : Path} (h : path.parent? = some above)
    (hne : above.text ≠ "") :
    ∃ between last after,
      entrySteps path = entrySteps above ++ between ++ last :: after ∧
        (∀ step ∈ between, step = .stay) ∧ last ≠ .stay ∧ ∀ step ∈ after, step = .stay := by
  obtain ⟨kept, between, last, after, hbody, habove, hbetween, hlast, hafter⟩ :=
    exists_pieces_of_parent? h hne
  have hne' : last ≠ [] := by
    rintro rfl
    exact absurd hlast (by decide)
  have hkept : kept <+: bodyPieces path.text.toList := by
    rw [hbody, List.append_assoc]
    exact List.prefix_append _ _
  refine ⟨pieceSteps between, stepOf last, pieceSteps after, ?_, pieceSteps_of_void hbetween,
    stepOf_ne_stay hlast, pieceSteps_of_void hafter⟩
  rw [entrySteps_eq above, habove, pieceSteps_lead_append hkept, entrySteps_eq_lead, hbody,
    ← List.singleton_append (l := after), pieceSteps_append, pieceSteps_append, pieceSteps_append,
    pieceSteps_singleton hne']
  simp only [List.append_assoc, List.singleton_append]

/-- The path and its parent are read in the same directory. -/
theorem startOf_parent {path above : Path} (h : path.parent? = some above) (hne : above.text ≠ "")
    (tree : FileTree) : tree.startOf above = tree.startOf path := by
  obtain ⟨kept, between, last, after, hbody, habove, _⟩ := exists_pieces_of_parent? h hne
  have hkept : kept <+: bodyPieces path.text.toList := by
    rw [hbody, List.append_assoc]
    exact List.prefix_append _ _
  have hstarts := (List.prefix_append_right_inj (leadChars path.text.toList)).mpr
    (join_mono hkept)
  rw [leadChars_append_join_bodyPieces, ← habove] at hstarts
  obtain ⟨rest, hrest⟩ := hstarts
  have hhead : path.text.toList.head? = above.text.toList.head? := by
    rw [← hrest, List.head?_append_of_ne_nil _ (by simpa [String.toList_eq_nil_iff] using hne)]
  unfold startOf isAbsolute
  rw [hhead]

/-- The text of the parent is the beginning of the text of the path. -/
theorem text_prefix_of_parent? {path above : Path} (h : path.parent? = some above) :
    above.text.toList <+: path.text.toList := by
  by_cases hne : above.text = ""
  · rw [hne]
    exact List.nil_prefix
  obtain ⟨kept, between, last, after, hbody, habove, _⟩ := exists_pieces_of_parent? h hne
  have hkept : kept <+: bodyPieces path.text.toList := by
    rw [hbody, List.append_assoc]
    exact List.prefix_append _ _
  have hstarts := (List.prefix_append_right_inj (leadChars path.text.toList)).mpr
    (join_mono hkept)
  rwa [leadChars_append_join_bodyPieces, ← habove] at hstarts

/-- A path that the system takes begins with paths that it takes. -/
theorem checkPath_of_prefix {path above : Path} (hstarts : above.text.toList <+: path.text.toList)
    (hne : above.text ≠ "") (hcheck : checkPath path = .ok ()) : checkPath above = .ok () := by
  obtain ⟨rest, hrest⟩ := hstarts
  have htext : path.text = above.text ++ String.ofList rest := by
    rw [← String.toList_inj, String.toList_append, String.toList_ofList, hrest]
  unfold checkPath at hcheck ⊢
  rw [htext, String.utf8ByteSize_append, String.contains_char_eq, String.toList_append] at hcheck
  rw [if_neg hne, String.contains_char_eq]
  split at hcheck
  · cases hcheck
  split at hcheck
  · cases hcheck
  split at hcheck
  · cases hcheck
  rename_i hnul hlength
  rw [if_neg (by simp_all), if_neg (by omega)]

theorem checkPath_parent {path above : Path} (h : path.parent? = some above)
    (hne : above.text ≠ "") (hcheck : checkPath path = .ok ()) : checkPath above = .ok () :=
  checkPath_of_prefix (text_prefix_of_parent? h) hne hcheck

/-! ## Segments of the parent -/

/-- The segment that a step of a path stands for. -/
def segmentOf? : Step → Option Segment
  | .up => some .parent
  | .name text => some (.name text)
  | .stay | .slash => none

theorem segmentOf?_stepOf {piece : List Char} (h : piece ≠ []) :
    segmentOf? (stepOf piece) = segment? piece := by
  unfold stepOf segment? isVoid
  by_cases hdot : piece = ['.']
  · simp [hdot, segmentOf?]
  by_cases hdots : piece = ['.', '.']
  · simp [hdots, segmentOf?]
  · simp [h, hdot, hdots, segmentOf?]

theorem filterMap_pieceSteps (pieces : List (List Char)) :
    (pieceSteps pieces).filterMap segmentOf? = pieces.filterMap segment? := by
  induction pieces with
  | nil => rfl
  | cons piece pieces ih =>
      by_cases hempty : piece = []
      · subst hempty
        rw [pieceSteps_nil_cons, ih]
        rfl
      · rw [← List.singleton_append, pieceSteps_append, pieceSteps_singleton hempty,
          List.filterMap_append, List.filterMap_append, ih]
        simp only [List.filterMap_cons, List.filterMap_nil, segmentOf?_stepOf hempty]

/-- What a path names after its lead can be read off its steps. -/
theorem namesIn_eq_filterMap (path : Path) :
    namesIn path.text.toList = (entrySteps path).filterMap segmentOf? := by
  rw [entrySteps_eq, filterMap_pieceSteps, namesIn]

/-- The text of the lead and some of the pieces that follow it has the same lead. -/
theorem leadSegments_lead_append {s : List Char} {pieces : List (List Char)}
    (h : pieces <+: bodyPieces s) :
    leadSegments (leadChars s ++ join '/' pieces) = leadSegments s := by
  have hwhole := leadChars_append_join_bodyPieces s
  by_cases htext : leadChars s ++ join '/' pieces = []
  · have hlead : leadChars s = [] := (List.append_eq_nil_iff.mp htext).1
    rw [htext, leadSegments, leadSegments, hlead]
    rfl
  obtain ⟨more, hmore⟩ := h
  by_cases hpieces : pieces = []
  · -- then the text is the lead alone
    rw [hpieces]
    change leadSegments (leadChars s ++ []) = _
    rw [List.append_nil]
    unfold leadSegments
    fun_cases leadChars s <;> rfl
  by_cases hnil : more = []
  · rw [hnil, List.append_nil] at hmore
    rw [hmore, hwhole]
  · rw [← hmore, join_append '/' hpieces hnil, ← List.append_assoc] at hwhole
    rw [← leadSegments_append_slash (join '/' more) htext, hwhole]

/-- The segments of the lead and some of the pieces that follow it. -/
theorem segments_lead_append {path : Path} {s : List Char} {pieces : List (List Char)}
    (h : pieces <+: bodyPieces s) (hpath : path.text.toList = leadChars s ++ join '/' pieces) :
    path.segments = leadSegments s ++ pieces.filterMap segment? := by
  have hlead : (leadSteps s).filterMap segmentOf? = [] := by
    unfold leadSteps
    split <;> rfl
  rw [segments_eq, hpath, leadSegments_lead_append h, namesIn, ← filterMap_pieceSteps,
    pieceSteps_lead_append h, List.filterMap_append, hlead, List.nil_append, filterMap_pieceSteps]

/-- A path has one segment more than its parent. -/
theorem segments_of_parent? {path above : Path} (h : path.parent? = some above) :
    ∃ last, path.segments = above.segments ++ [last] := by
  have hvoid {pieces : List (List Char)} (hpieces : ∀ piece ∈ pieces, isVoid piece = true) :
      pieces.filterMap segment? = [] :=
    List.filterMap_eq_nil_iff.mpr fun piece hpiece => by simp [segment?, hpieces piece hpiece]
  rcases parent?_cases h with ⟨hbody, hlead, rfl⟩ |
    ⟨kept, between, last, after, hbody, habove, hbetween, hlast, hafter⟩
  · refine ⟨.current, ?_⟩
    rw [segments, hvoid hbody, leadSegments, hlead, segments_empty]
    rfl
  · have hkept : kept <+: bodyPieces path.text.toList := by
      rw [hbody, List.append_assoc]
      exact List.prefix_append _ _
    obtain ⟨segment, hsegment⟩ : ∃ segment, segment? last = some segment := by
      unfold segment?
      rw [if_neg (by simp [hlast])]
      split <;> exact ⟨_, rfl⟩
    refine ⟨segment, ?_⟩
    rw [segments_lead_append hkept habove, segments, hbody, List.filterMap_append,
      List.filterMap_append, hvoid hbetween, List.filterMap_cons, hsegment, hvoid hafter,
      List.append_nil, List.append_assoc]

/-- Only the root and the empty path have no parent. -/
theorem segments_of_parent?_eq_none {path : Path} (h : path.parent? = none) :
    path.segments = [] ∨ path.segments = [.root] := by
  obtain ⟨voids, hbody, hvoids⟩ := exists_dropVoidEnd_append (bodyPieces path.text.toList)
  unfold parent? at h
  simp only at h
  split at h
  · rename_i hnil
    split at h
    · cases h
    · rename_i hlead
      rw [hnil, List.nil_append] at hbody
      have hnone : (bodyPieces path.text.toList).filterMap segment? = [] := by
        refine List.filterMap_eq_nil_iff.mpr fun piece hpiece => ?_
        rw [hbody] at hpiece
        simp [segment?, hvoids piece hpiece]
      rw [segments, hnone, List.append_nil]
      unfold leadSegments
      split
      · exact Or.inr rfl
      · exact absurd ‹_› hlead
      · exact Or.inl rfl
  · cases h

end WebComponents.Files.FileTree
