import WebComponents.Path.Segments

/-!
# Paths by their text alone

`clean` takes a path to its normal form: no `.`, and `..` only where nothing is left to go back
from.  `resolve` reads a path in a directory, and `relative` finds the way from one path to
another.  None of them looks at a file system, so a symbolic link counts as a plain name.

The text of a clean path is built from its segments, so `segments_clean` is all that a proof needs
to know of it.
-/

namespace WebComponents.Path

/-- One segment added to a clean path whose segments, last first, are `done`. -/
def cleanStep (done : List Segment) : Segment → List Segment
  | .current => done
  | .parent =>
    match done with
    | .name _ :: rest => rest
    | .root :: _ => done
    | _ => .parent :: done
  | segment => segment :: done

/-- The clean form of a sequence of segments. -/
def cleanSegments (segments : List Segment) : List Segment :=
  (segments.foldl cleanStep []).reverse

/-- The path without `.` and with each `..` taken back, as far as its text allows. -/
def clean (path : Path) : Path :=
  ofSegments (cleanSegments path.segments)

/-- The clean form of `path` as read in the directory `base`. -/
def resolve (base path : Path) : Path :=
  (base.join path).clean

/-- What `cleanStep` keeps: names and `..`, latest first, perhaps above a root. -/
def IsDone (done : List Segment) : Prop :=
  ∃ inner base, done = inner ++ base ∧ (∀ segment ∈ inner, segment.IsInner) ∧
    (base = [] ∨ base = [.root])

theorem isDone_cleanStep {done : List Segment} (h : IsDone done) {segment : Segment}
    (hs : segment.IsInner) : IsDone (cleanStep done segment) := by
  obtain ⟨inner, base, rfl, hinner, hbase⟩ := h
  have hcons : IsDone (segment :: (inner ++ base)) :=
    ⟨segment :: inner, base, rfl, List.forall_mem_cons.2 ⟨hs, hinner⟩, hbase⟩
  cases segment with
  | root => exact hs.elim
  | current => exact hs.elim
  | name text => exact hcons
  | parent =>
      cases inner with
      | nil =>
          rcases hbase with rfl | rfl
          · exact hcons
          · exact ⟨[], [.root], rfl, hinner, Or.inr rfl⟩
      | cons last inner =>
          have hbelow := (List.forall_mem_cons.1 hinner).2
          cases last with
          | root => exact (hinner _ List.mem_cons_self).elim
          | current => exact (hinner _ List.mem_cons_self).elim
          | parent => exact hcons
          | name text => exact ⟨inner, base, rfl, hbelow, hbase⟩

theorem isDone_foldl {done segments : List Segment} (h : IsDone done)
    (hs : ∀ segment ∈ segments, segment.IsInner) : IsDone (segments.foldl cleanStep done) := by
  induction segments generalizing done with
  | nil => exact h
  | cons segment segments ih =>
      obtain ⟨hsegment, hsegments⟩ := List.forall_mem_cons.1 hs
      exact ih (isDone_cleanStep h hsegment) hsegments

theorem isSegments_reverse {done : List Segment} (h : IsDone done) : IsSegments done.reverse := by
  obtain ⟨inner, base, rfl, hinner, hbase⟩ := h
  have hreverse : ∀ segment ∈ inner.reverse, segment.IsInner :=
    fun segment hmem => hinner segment (List.mem_reverse.1 hmem)
  rcases hbase with rfl | rfl
  · rw [List.append_nil]
    exact isSegments_of_inner hreverse
  · rw [List.reverse_append]
    exact hreverse

theorem isSegments_cleanSegments {segments : List Segment} (h : IsSegments segments) :
    IsSegments (cleanSegments segments) := by
  have hempty : IsDone [] := ⟨[], [], rfl, by simp, Or.inl rfl⟩
  have hroot : IsDone [.root] := ⟨[], [.root], rfl, by simp, Or.inr rfl⟩
  refine isSegments_reverse ?_
  unfold IsSegments at h
  split at h
  · rw [List.foldl_cons]
    exact isDone_foldl hroot h
  · rw [List.foldl_cons]
    exact isDone_foldl hempty h
  · exact isDone_foldl hempty h

/-- The segments of a clean path. -/
theorem segments_clean (path : Path) : path.clean.segments = cleanSegments path.segments :=
  segments_ofSegments (isSegments_cleanSegments (isSegments_segments path))

/-- The way from one clean path to another: back over what they do not share, then forward. -/
def wayBetween : List Segment → List Segment → List Segment
  | f :: fs, t :: ts =>
    if f = t then wayBetween fs ts else (f :: fs).map (fun _ => .parent) ++ (t :: ts)
  | fs, ts => fs.map (fun _ => .parent) ++ ts

/-- The path that leads from the directory `start` to `target`. -/
def relative (start target : Path) : Path :=
  ofSegments (wayBetween (cleanSegments start.segments) (cleanSegments target.segments))

end WebComponents.Path
