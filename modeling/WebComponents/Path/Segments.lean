import WebComponents.Path.Basic

/-!
# The segments of joined and built paths

The segments of a path are its lead and the segments of all pieces between slashes
(`segments_eq`): a lead is itself a void piece, so it does not matter that the body starts after it.
From there on no proof has to look at a text again.

* `segments_join`: joining appends the segments, without the `.` that opens the second path.
* `isSegments_segments`: a root or a `.` comes first, and otherwise there are names and `..` only.
* `isName_of_mem_segments`: a name in a path has no slash and is not a dot or two.
* `segments_ofSegments`: a path built from such segments has them again.
-/

namespace WebComponents.Path

open Text

/-- The segments of the pieces of a text between slashes. -/
def namesIn (s : List Char) : List Segment :=
  (split (· == '/') s).filterMap segment?

/-- A text that names one step: not empty, without a slash, and neither `.` nor `..`. -/
def IsName (text : String) : Prop :=
  text.toList ≠ [] ∧ '/' ∉ text.toList ∧ text.toList ≠ ['.'] ∧ text.toList ≠ ['.', '.']

/-- A segment that can stand anywhere in a path. -/
def Segment.IsInner : Segment → Prop
  | .parent => True
  | .name text => IsName text
  | _ => False

/-- Segments that are those of a path: names and `..`, after a root or a `.` or neither. -/
def IsSegments : List Segment → Prop
  | .root :: rest => ∀ segment ∈ rest, segment.IsInner
  | .current :: rest => ∀ segment ∈ rest, segment.IsInner
  | segments => ∀ segment ∈ segments, segment.IsInner

/-! ## The pieces of a text -/

theorem namesIn_nil : namesIn [] = [] := by
  simp [namesIn, split, segment?, isVoid]

theorem namesIn_dot : namesIn ['.'] = [] := by
  decide

theorem namesIn_append_slash (s t : List Char) :
    namesIn (s ++ '/' :: t) = namesIn s ++ namesIn t := by
  simp [namesIn, split_append_cons]

theorem namesIn_name {text : String} (h : IsName text) : namesIn text.toList = [.name text] := by
  obtain ⟨hempty, hslash, hdot, hdots⟩ := h
  simp [namesIn, split_eq_singleton hslash, segment?, isVoid, hempty, hdot, hdots]

theorem namesIn_drop_lead (s : List Char) :
    namesIn (s.drop (leadChars s).length) = namesIn s := by
  have hslash (rest : List Char) : namesIn ('/' :: rest) = namesIn rest := by
    simpa [namesIn_nil] using namesIn_append_slash [] rest
  fun_cases leadChars s with
  | case1 rest => simp [hslash]
  | case2 => simp [namesIn_nil, namesIn_dot]
  | case3 rest =>
      have hdot := namesIn_append_slash ['.'] rest
      simp_all [namesIn_dot]
  | case4 => simp

theorem isInner_of_mem_namesIn {s : List Char} {segment : Segment} (h : segment ∈ namesIn s) :
    segment.IsInner := by
  obtain ⟨piece, hmem, hpiece⟩ := List.mem_filterMap.1 h
  have hslash := not_mem_of_mem_split hmem
  unfold segment? at hpiece
  split at hpiece
  · cases hpiece
  · rename_i hvoid
    simp only [isVoid, Bool.or_eq_true, List.isEmpty_iff, beq_iff_eq, not_or] at hvoid
    split at hpiece
    · cases hpiece
      trivial
    · rename_i hparent
      cases hpiece
      exact ⟨by simpa using hvoid.1, by simpa using hslash, by simpa using hvoid.2,
        by simpa using hparent⟩

/-! ## The lead -/

theorem leadChars_append_slash {s : List Char} (t : List Char) (hs : s ≠ []) :
    leadChars (s ++ '/' :: t) = leadChars s := by
  match s with
  | [] => exact absurd rfl hs
  | [c] =>
      by_cases hslash : c = '/'
      · subst hslash
        rfl
      · by_cases hdot : c = '.'
        · subst hdot
          rfl
        · simp [leadChars, hslash, hdot]
  | c :: d :: rest =>
      by_cases hslash : c = '/'
      · subst hslash
        rfl
      · by_cases hdot : c = '.'
        · subst hdot
          by_cases hd : d = '/'
          · subst hd
            rfl
          · simp [leadChars, hd]
        · simp [leadChars, hslash, hdot]

theorem leadSegments_append_slash {s : List Char} (t : List Char) (hs : s ≠ []) :
    leadSegments (s ++ '/' :: t) = leadSegments s := by
  unfold leadSegments
  rw [leadChars_append_slash t hs]

theorem leadSegments_of_relative {s : List Char} (h : s.head? ≠ some '/') :
    leadSegments s = [] ∨ leadSegments s = [.current] := by
  unfold leadSegments
  fun_cases leadChars s <;> simp_all

theorem leadSegments_eq_nil {s : List Char} (hslash : '/' ∉ s) (hdot : s ≠ ['.']) :
    leadSegments s = [] := by
  unfold leadSegments
  fun_cases leadChars s <;> simp_all

/-! ## Segments -/

/-- The lead, and then all pieces between slashes. -/
theorem segments_eq (path : Path) :
    path.segments = leadSegments path.text.toList ++ namesIn path.text.toList := by
  rw [← namesIn_drop_lead]
  rfl

theorem segments_empty : (Path.mk "").segments = [] := by
  simp [segments_eq, leadSegments, leadChars, namesIn_nil]

theorem segments_name {text : String} (h : IsName text) :
    (Path.mk text).segments = [.name text] := by
  rw [segments_eq, namesIn_name h, leadSegments_eq_nil h.2.1 h.2.2.1, List.nil_append]

/-- The segments of a relative path without the `.` that may open it. -/
theorem filter_segments_of_relative {path : Path} (h : path.isAbsolute = false) :
    path.segments.filter (· ≠ .current) = namesIn path.text.toList := by
  have hhead : path.text.toList.head? ≠ some '/' := by
    simpa [isAbsolute] using h
  have hkeep : (namesIn path.text.toList).filter (· ≠ .current) = namesIn path.text.toList := by
    rw [List.filter_eq_self]
    intro segment hmem
    have hinner := isInner_of_mem_namesIn hmem
    cases segment <;> simp_all [Segment.IsInner]
  rw [segments_eq, List.filter_append, hkeep]
  rcases leadSegments_of_relative hhead with hlead | hlead <;> simp [hlead]

/-- The segments of a joined path are those of the base and those of the path, without the `.` that
opens it. -/
theorem segments_join {base path : Path} (hbase : base.text ≠ "")
    (hpath : path.isAbsolute = false) :
    (base.join path).segments = base.segments ++ path.segments.filter (· ≠ .current) := by
  rw [filter_segments_of_relative hpath]
  have hne : base.text.toList ≠ [] := by
    simpa [String.toList_eq_nil_iff] using hbase
  unfold join
  simp only [hpath, Bool.false_eq_true, ↓reduceIte]
  by_cases hslash : base.endsWithSlash = true
  · -- the slash at the end of the base separates
    obtain ⟨s, hs⟩ : ∃ s, base.text.toList = s ++ ['/'] := by
      have hlast : base.text.toList.getLast? = some '/' := by
        simpa [endsWithSlash] using hslash
      exact List.getLast?_eq_some_iff.1 hlast
    simp only [hslash, Bool.or_true, ↓reduceIte]
    rw [segments_eq, segments_eq, String.toList_append, hs, List.append_assoc,
      List.singleton_append, namesIn_append_slash, namesIn_append_slash, namesIn_nil,
      List.append_nil, ← List.append_assoc]
    congr 1
    by_cases hnil : s = []
    · subst hnil
      rfl
    · rw [leadSegments_append_slash _ hnil, leadSegments_append_slash _ hnil]
  · -- a slash is put between the two
    have hempty : base.text.isEmpty = false := by
      simpa [String.isEmpty_iff] using hbase
    have hchar : "/".toList = ['/'] := rfl
    simp only [hslash, hempty, Bool.or_self, Bool.false_eq_true, ↓reduceIte]
    rw [segments_eq, segments_eq, String.toList_append, String.toList_append, hchar,
      List.append_assoc, List.singleton_append, namesIn_append_slash,
      leadSegments_append_slash _ hne, List.append_assoc]

/-! ## Paths from segments -/

theorem isSegments_of_inner {segments : List Segment}
    (h : ∀ segment ∈ segments, segment.IsInner) : IsSegments segments := by
  cases segments with
  | nil => simp [IsSegments]
  | cons segment segments =>
      cases segment with
      | root => exact (h _ List.mem_cons_self : False).elim
      | current => exact (h _ List.mem_cons_self : False).elim
      | parent => exact h
      | name text => exact h

/-- The segments of a path are of the form that its name promises. -/
theorem isSegments_segments (path : Path) : IsSegments path.segments := by
  have hinner : ∀ segment ∈ namesIn path.text.toList, segment.IsInner :=
    fun _ h => isInner_of_mem_namesIn h
  rw [segments_eq]
  unfold leadSegments
  split
  · exact hinner
  · exact hinner
  · exact isSegments_of_inner hinner

theorem isName_of_mem_segments {path : Path} {text : String} (h : .name text ∈ path.segments) :
    IsName text := by
  rw [segments_eq, List.mem_append] at h
  rcases h with h | h
  · unfold leadSegments at h
    split at h <;> simp at h
  · exact isInner_of_mem_namesIn h

theorem segments_join_inner {base : Path} {segment : Segment} (h : segment.IsInner) :
    (base.join ⟨segment.text⟩).segments = base.segments ++ [segment] := by
  have hsegment : (Path.mk segment.text).segments = [segment] := by
    cases segment with
    | root => exact h.elim
    | current => exact h.elim
    | parent => decide
    | name text => exact segments_name h
  have hrelative : (Path.mk segment.text).isAbsolute = false := by
    cases segment with
    | root => exact h.elim
    | current => exact h.elim
    | parent => decide
    | name text =>
        simp only [isAbsolute, Segment.text, beq_eq_false_iff_ne, ne_eq]
        exact fun hhead => h.2.1 (List.mem_of_mem_head? hhead)
  by_cases hbase : base.text = ""
  · have hsegments : base.segments = [] := by
      cases base
      simp_all [segments_empty]
    have hjoin : base.join ⟨segment.text⟩ = ⟨segment.text⟩ := by
      simp [join, hbase]
    rw [hjoin, hsegment, hsegments, List.nil_append]
  · rw [segments_join hbase hrelative, hsegment]
    cases segment <;> simp_all [Segment.IsInner]

theorem segments_foldl_join (base : Path) {segments : List Segment}
    (h : ∀ segment ∈ segments, segment.IsInner) :
    (segments.foldl (fun path segment => path.join ⟨segment.text⟩) base).segments =
      base.segments ++ segments := by
  induction segments generalizing base with
  | nil => simp
  | cons segment segments ih =>
      rw [List.foldl_cons, ih _ fun other hmem => h other (List.mem_cons_of_mem _ hmem),
        segments_join_inner (h segment List.mem_cons_self), List.append_assoc,
        List.singleton_append]

/-- A path built from the segments of a path has these segments. -/
theorem segments_ofSegments {segments : List Segment} (h : IsSegments segments) :
    (ofSegments segments).segments = segments := by
  unfold ofSegments
  unfold IsSegments at h
  split at h
  · rw [List.foldl_cons, segments_foldl_join _ h]
    rfl
  · rw [List.foldl_cons, segments_foldl_join _ h]
    rfl
  · rw [segments_foldl_join _ h, segments_empty, List.nil_append]

end WebComponents.Path
