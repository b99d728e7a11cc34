import Mathlib.Data.List.Induction
import WebComponents.Proofs.Path.Ways

/-!
# The normal form of a path

Cleaning reads the segments of a path one by one onto a stack (`cleanStep`).  On a stack that was
empty there are names above steps back, or above the root if the path is absolute, so a clean path
has one of two forms:

```text
absolute    /       a b c        the root, then names        (`IsRooted`)
relative    .. ..   a b c        steps back, then names      (`IsWay`)
```

What a relative path does to a stack depends on its clean form alone
(`foldl_cleanStep_cleanSegments`): a `..` takes back the name just before it, whatever lies below.
Joining appends the segments, but for a `.` that no stack takes notice of (`foldl_cleanStep_join`).
So on both sides of a join a clean path may stand for the path itself, and two paths can be resolved
one after the other or joined first (`clean_normalForm`).
-/

namespace WebComponents.Path

variable {base path next : Path} {segments done : List Segment}

/-! ## The two forms -/

/-- Steps back, and then names. -/
def IsWay (segments : List Segment) : Prop :=
  ∃ back, ∃ names : List String, segments = List.replicate back .parent ++ names.map .name

/-- A path is relative exactly if it does not pass the root. -/
theorem isAbsolute_eq_false_iff : path.isAbsolute = false ↔ .root ∉ path.segments := by
  constructor
  · intro h
    have hhead : path.text.toList.head? ≠ some '/' := by
      simpa [isAbsolute] using h
    rw [segments_eq, List.mem_append, not_or]
    refine ⟨?_, fun hmem => isInner_of_mem_namesIn hmem⟩
    rcases leadSegments_of_relative hhead with hlead | hlead <;> simp [hlead]
  · intro hroot
    by_contra habsolute
    have hsegments := segments_of_isAbsolute (by simpa using habsolute)
    exact hroot (by simp [hsegments])

/-- Above steps back there are still names above steps back after any segment but the root. -/
private theorem exists_cleanStep_eq_back (back : Nat) (names : List String) {segment : Segment}
    (h : segment ≠ .root) :
    ∃ later, ∃ kept : List String,
      cleanStep (names.map .name ++ List.replicate back .parent) segment =
        kept.map .name ++ List.replicate later .parent := by
  cases segment with
  | root => exact absurd rfl h
  | current => exact ⟨back, names, rfl⟩
  | name text => exact ⟨back, text :: names, rfl⟩
  | parent =>
      cases names with
      | nil =>
          refine ⟨back + 1, [], ?_⟩
          cases back <;> rfl
      | cons name names => exact ⟨back, names, rfl⟩

private theorem exists_foldl_cleanStep_eq_back (back : Nat) (names : List String)
    (h : .root ∉ segments) :
    ∃ later, ∃ kept : List String,
      segments.foldl cleanStep (names.map .name ++ List.replicate back .parent) =
        kept.map .name ++ List.replicate later .parent := by
  induction segments generalizing back names with
  | nil => exact ⟨back, names, rfl⟩
  | cons segment segments ih =>
      rw [List.mem_cons, not_or] at h
      obtain ⟨later, kept, hstep⟩ := exists_cleanStep_eq_back back names (Ne.symm h.1)
      rw [List.foldl_cons, hstep]
      exact ih later kept h.2

theorem isWay_cleanSegments (h : .root ∉ segments) : IsWay (cleanSegments segments) := by
  obtain ⟨back, names, hfold⟩ := exists_foldl_cleanStep_eq_back 0 [] h
  refine ⟨back, names.reverse, ?_⟩
  change segments.foldl cleanStep [] = _ at hfold
  rw [cleanSegments, hfold, List.reverse_append, List.reverse_replicate, List.map_reverse]

theorem isWay_segments_clean (h : path.isAbsolute = false) : IsWay path.clean.segments := by
  rw [segments_clean]
  exact isWay_cleanSegments (isAbsolute_eq_false_iff.mp h)

theorem isRooted_segments_clean (h : path.isAbsolute = true) : IsRooted path.clean.segments := by
  rw [segments_clean]
  exact isRooted_cleanSegments h

theorem root_notMem_of_isWay (h : IsWay segments) : .root ∉ segments := by
  obtain ⟨back, names, rfl⟩ := h
  simp [List.mem_replicate]

theorem current_notMem_of_isWay (h : IsWay segments) : .current ∉ segments := by
  obtain ⟨back, names, rfl⟩ := h
  simp [List.mem_replicate]

theorem current_notMem_of_isRooted (h : IsRooted segments) : .current ∉ segments := by
  obtain ⟨names, rfl⟩ := h
  simp

/-- A clean path is absolute exactly if the path is. -/
theorem isAbsolute_clean (path : Path) : path.clean.isAbsolute = path.isAbsolute := by
  cases h : path.isAbsolute with
  | true =>
      obtain ⟨names, hnames⟩ := isRooted_segments_clean h
      by_contra hrelative
      exact isAbsolute_eq_false_iff.mp (by simpa using hrelative) (by simp [hnames])
  | false => exact isAbsolute_eq_false_iff.mpr (root_notMem_of_isWay (isWay_segments_clean h))

/-! ## Stacks -/

/-- A path without a root does to every stack what its clean form does. -/
theorem foldl_cleanStep_cleanSegments (h : .root ∉ segments) (done : List Segment) :
    (cleanSegments segments).foldl cleanStep done = segments.foldl cleanStep done := by
  induction segments using List.reverseRecOn with
  | nil => rfl
  | append_singleton front segment ih =>
      rw [List.mem_append, List.mem_singleton, not_or] at h
      have hfront := ih h.1
      have hpush (last : Segment) (hlast : cleanStep (front.foldl cleanStep []) last =
          last :: front.foldl cleanStep []) :
          (cleanSegments (front ++ [last])).foldl cleanStep done =
            (front ++ [last]).foldl cleanStep done := by
        rw [List.foldl_append, ← hfront, cleanSegments, List.foldl_append, List.foldl_cons, hlast,
          List.foldl_nil, List.reverse_cons, List.foldl_append]
        rfl
      cases segment with
      | root => exact absurd rfl h.2
      | current =>
          rw [List.foldl_append, ← hfront, cleanSegments, List.foldl_append]
          rfl
      | name text => exact hpush _ rfl
      | parent =>
          cases hstack : front.foldl cleanStep [] with
          | nil => exact hpush _ (by rw [hstack]; rfl)
          | cons top rest =>
              cases top with
              | root =>
                  have hroot : .root ∈ cleanSegments front := by simp [cleanSegments, hstack]
                  exact absurd (mem_of_mem_cleanSegments hroot) h.1
              | current => exact hpush _ (by rw [hstack]; rfl)
              | parent => exact hpush _ (by rw [hstack]; rfl)
              | name text =>
                  -- the name is on top of the other stack too, and is taken back there as well
                  rw [cleanSegments, hstack, List.reverse_cons, List.foldl_append] at hfront
                  rw [List.foldl_append, ← hfront, cleanSegments, List.foldl_append, hstack]
                  rfl

/-- No stack takes notice of a `.`. -/
theorem foldl_cleanStep_filter (segments done : List Segment) :
    (segments.filter (· ≠ .current)).foldl cleanStep done = segments.foldl cleanStep done := by
  induction segments generalizing done with
  | nil => rfl
  | cons segment segments ih =>
      by_cases h : segment = .current
      · subst h
        exact ih done
      · rw [List.filter_cons_of_pos (by simpa using h), List.foldl_cons, List.foldl_cons, ih]

theorem join_of_empty (h : base.text = "") (path : Path) : base.join path = path := by
  simp [join, h]

/-- A joined path does to a stack what its two parts do one after the other. -/
theorem foldl_cleanStep_join (base : Path) (h : path.isAbsolute = false) (done : List Segment) :
    (base.join path).segments.foldl cleanStep done =
      path.segments.foldl cleanStep (base.segments.foldl cleanStep done) := by
  by_cases hbase : base.text = ""
  · have hnil : base.segments = [] := by
      cases base
      simp_all [segments_empty]
    rw [join_of_empty hbase, hnil]
    rfl
  · rw [segments_join hbase h, List.foldl_append, foldl_cleanStep_filter]

/-! ## Cleaning twice -/

theorem cleanSegments_of_isRooted (h : IsRooted segments) : cleanSegments segments = segments := by
  obtain ⟨names, rfl⟩ := h
  rw [cleanSegments, List.foldl_cons]
  change ((names.map Segment.name).foldl cleanStep [.root]).reverse = _
  rw [foldl_cleanStep_names]
  simp

theorem cleanSegments_of_isWay (h : IsWay segments) : cleanSegments segments = segments := by
  obtain ⟨back, names, rfl⟩ := h
  have hback : (List.replicate back Segment.parent).foldl cleanStep [] =
      List.replicate back .parent := by
    induction back with
    | zero => rfl
    | succ back ih =>
        rw [List.replicate_succ', List.foldl_append, ih, ← List.replicate_succ']
        cases back <;> rfl
  rw [cleanSegments, List.foldl_append, hback, foldl_cleanStep_names]
  simp

theorem cleanSegments_clean (path : Path) :
    cleanSegments path.clean.segments = path.clean.segments := by
  cases h : path.isAbsolute with
  | true => exact cleanSegments_of_isRooted (isRooted_segments_clean h)
  | false => exact cleanSegments_of_isWay (isWay_segments_clean h)

/-- A clean path has the stack of the path. -/
theorem foldl_cleanStep_clean (path : Path) :
    path.clean.segments.foldl cleanStep [] = path.segments.foldl cleanStep [] := by
  have hclean := (cleanSegments_clean path).trans (segments_clean path)
  exact List.reverse_inj.mp hclean

theorem clean_eq_of_foldl {other : Path}
    (h : path.segments.foldl cleanStep [] = other.segments.foldl cleanStep []) :
    path.clean = other.clean := by
  rw [clean, clean, cleanSegments, cleanSegments, h]

/-- Paths whose clean forms are the same are cleaned to one text. -/
theorem clean_eq_of_same {path other : Path} (h : path.clean.Same other.clean) :
    path.clean = other.clean := by
  change Path.segments _ = Path.segments _ at h
  rw [segments_clean, segments_clean] at h
  rw [clean, clean, h]

theorem clean_clean (path : Path) : path.clean.clean = path.clean :=
  clean_eq_of_foldl (foldl_cleanStep_clean path)

/-! ## Clean paths that are joined -/

theorem join_of_isAbsolute (base : Path) (h : path.isAbsolute = true) : base.join path = path :=
  if_pos h

theorem isAbsolute_join_of_relative (hbase : base.isAbsolute = false)
    (hpath : path.isAbsolute = false) : (base.join path).isAbsolute = false := by
  by_cases hempty : base.text = ""
  · rwa [join_of_empty hempty]
  · rw [isAbsolute_eq_false_iff] at hbase hpath ⊢
    rw [segments_join hempty (isAbsolute_eq_false_iff.mpr hpath), List.mem_append, not_or]
    exact ⟨hbase, fun hmem => hpath (List.mem_of_mem_filter hmem)⟩

/-- Both parts of a joined path may be cleaned first. -/
theorem clean_join (base path : Path) :
    (base.join path).clean = (base.clean.join path.clean).clean := by
  cases h : path.isAbsolute with
  | true =>
      rw [join_of_isAbsolute _ h, join_of_isAbsolute _ ((isAbsolute_clean path).trans h),
        clean_clean]
  | false =>
      refine clean_eq_of_foldl ?_
      rw [foldl_cleanStep_join base h,
        foldl_cleanStep_join base.clean ((isAbsolute_clean path).trans h), foldl_cleanStep_clean,
        segments_clean, foldl_cleanStep_cleanSegments (isAbsolute_eq_false_iff.mp h)]

/-- It does not matter which two of three paths are joined first. -/
theorem clean_join_join (base path next : Path) :
    ((base.join path).join next).clean = (base.join (path.join next)).clean := by
  cases hnext : next.isAbsolute with
  | true => rw [join_of_isAbsolute _ hnext, join_of_isAbsolute _ hnext, join_of_isAbsolute _ hnext]
  | false =>
      cases hpath : path.isAbsolute with
      | true =>
          rw [join_of_isAbsolute _ hpath, join_of_isAbsolute _ (isAbsolute_join hpath hnext)]
      | false =>
          refine clean_eq_of_foldl ?_
          rw [foldl_cleanStep_join _ hnext, foldl_cleanStep_join _ hpath,
            foldl_cleanStep_join _ (isAbsolute_join_of_relative hpath hnext),
            foldl_cleanStep_join _ hnext]

theorem resolve_resolve (base path next : Path) :
    (base.resolve path).resolve next = base.resolve (path.join next) := by
  calc (base.resolve path).resolve next
      = ((base.join path).clean.clean.join next.clean).clean := clean_join _ _
    _ = ((base.join path).clean.join next.clean).clean := by rw [clean_clean]
    _ = ((base.join path).join next).clean := (clean_join _ _).symm
    _ = base.resolve (path.join next) := clean_join_join base path next

/-- **Clean paths are normal forms.**  A clean path has no `.`, and goes back at its start only, if
it is relative, which it is if the path is.  Cleaning again changes nothing, both parts of a join
may be cleaned first, and paths that are resolved one after the other may be joined first. -/
theorem clean_normalForm (base path next : Path) :
    (.current ∉ path.clean.segments ∧
      if path.isAbsolute then IsRooted path.clean.segments else IsWay path.clean.segments) ∧
    path.clean.isAbsolute = path.isAbsolute ∧
    path.clean.clean = path.clean ∧
    (base.join path).clean = (base.clean.join path.clean).clean ∧
    (base.resolve path).resolve next = base.resolve (path.join next) := by
  refine ⟨?_, isAbsolute_clean path, clean_clean path, clean_join base path,
    resolve_resolve base path next⟩
  cases h : path.isAbsolute with
  | true =>
      have hrooted := isRooted_segments_clean h
      exact ⟨current_notMem_of_isRooted hrooted, hrooted⟩
  | false =>
      have hway := isWay_segments_clean h
      exact ⟨current_notMem_of_isWay hway, hway⟩

end WebComponents.Path
