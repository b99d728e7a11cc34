import WebComponents.Proofs.Path.NormalForm

/-!
# The shortest way to a target

A relative path leads from a directory to a target if it is resolved there to the clean form of the
target (`LeadsBetween`).  In clean form it goes some steps back and then along names.  The steps
back keep a front of the directory, and the names lead on from there, so that what is kept is a
front of the target too:

```text
directory   /  dist types card        kept        way                      segments
target      /  dist core              dist        .. ..     core           3
                                      (nothing)   .. .. ..  dist core      5
```

The way that `relative` finds keeps the longest front (`exists_segments_relative_eq`).  Each name
less costs a step back and a name forward (`back_le_and_forth_le`), so this way has the fewest
segments, and no other clean way has as few (`relative_shortest`).
-/

namespace WebComponents.Path

variable {start target way : Path} {segments : List Segment}
  {shared back forth names kept : List String} {steps : Nat}

/-! ## The longest shared front -/

/-- Two lists have no first item in common. -/
def PartsAtOnce (back forth : List String) : Prop :=
  ∀ name ∈ back.head?, name ∉ forth.head?

theorem exists_wayBetween_eq (start target : List String) :
    ∃ shared back forth, start = shared ++ back ∧ target = shared ++ forth ∧
      PartsAtOnce back forth ∧
      wayBetween (start.map .name) (target.map .name) =
        List.replicate back.length .parent ++ forth.map .name := by
  have hparted {start target : List String} (h : PartsAtOnce start target)
      (hway : wayBetween (start.map .name) (target.map .name) =
        (start.map Segment.name).map (fun _ => .parent) ++ target.map .name) :
      ∃ shared back forth, start = shared ++ back ∧ target = shared ++ forth ∧
        PartsAtOnce back forth ∧
        wayBetween (start.map .name) (target.map .name) =
          List.replicate back.length .parent ++ forth.map .name :=
    ⟨[], start, target, rfl, rfl, h, by rw [hway, List.map_const', List.length_map]⟩
  induction start generalizing target with
  | nil => exact hparted (by simp [PartsAtOnce]) (by cases target <;> rfl)
  | cons first start ih =>
      cases target with
      | nil => exact hparted (by simp [PartsAtOnce]) rfl
      | cons next target =>
          by_cases hsame : first = next
          · subst hsame
            obtain ⟨shared, back, forth, rfl, rfl, hparts, hway⟩ := ih target
            refine ⟨first :: shared, back, forth, rfl, rfl, hparts, ?_⟩
            rw [← hway]
            simp [wayBetween]
          · exact hparted (by simpa [PartsAtOnce] using Ne.symm hsame) (by simp [wayBetween, hsame])

/-- A common front is no longer than the shared one. -/
theorem length_le_of_prefix (hparts : PartsAtOnce back forth) (hback : kept <+: shared ++ back)
    (hforth : kept <+: shared ++ forth) : kept.length ≤ shared.length := by
  by_contra hlong
  obtain ⟨more, rfl⟩ :=
    List.prefix_of_prefix_length_le (List.prefix_append shared back) hback (by omega)
  rw [List.prefix_append_right_inj] at hback hforth
  cases more with
  | nil => simp at hlong
  | cons name more =>
      obtain ⟨_, rfl⟩ := hback
      obtain ⟨_, rfl⟩ := hforth
      exact hparts name rfl rfl

/-- Whoever keeps a front of the directory and goes on to the target goes back and forth at least as
far as from the longest shared front. -/
theorem back_le_and_forth_le (hparts : PartsAtOnce back forth)
    (htarget : shared ++ forth = (shared ++ back).take ((shared ++ back).length - steps) ++ names) :
    back.length ≤ steps ∧ forth.length ≤ names.length ∧
      (steps + names.length = back.length + forth.length →
        steps = back.length ∧ names = forth) := by
  generalize hkept : (shared ++ back).take ((shared ++ back).length - steps) = kept at htarget
  have hprefix : kept <+: shared ++ back := hkept ▸ List.take_prefix _ _
  have hshort := length_le_of_prefix hparts hprefix (htarget ▸ List.prefix_append kept names)
  have hlength : kept.length = shared.length + back.length - steps := by
    rw [← hkept, List.length_take, List.length_append]
    omega
  have hwhole : shared.length + forth.length = kept.length + names.length := by
    simpa using congrArg List.length htarget
  refine ⟨by omega, by omega, fun hsum => ⟨by omega, ?_⟩⟩
  -- then all of the shared front is kept
  have hsame : kept = shared :=
    List.prefix_of_prefix_length_le hprefix (List.prefix_append shared back) hshort
      |>.eq_of_length (by omega)
  rw [hsame] at htarget
  exact (List.append_cancel_left htarget).symm

/-! ## Following a way -/

theorem foldl_cleanStep_steps_back (names : List String) (steps : Nat) :
    (List.replicate steps Segment.parent).foldl cleanStep (names.map .name ++ [.root]) =
      (names.drop steps).map .name ++ [.root] := by
  induction steps generalizing names with
  | zero => rfl
  | succ steps ih =>
      rw [List.replicate_succ, List.foldl_cons]
      cases names with
      | nil => simpa [cleanStep] using ih []
      | cons name names => exact ih names

/-- A way goes back over names of the directory, but not over the root, and then along its own. -/
theorem cleanSegments_join_way {startNames : List String} (hway : way.isAbsolute = false)
    (hstart : cleanSegments start.segments = .root :: startNames.map .name)
    (hsteps : cleanSegments way.segments = List.replicate steps .parent ++ names.map .name) :
    cleanSegments (start.join way).segments =
      .root :: (startNames.take (startNames.length - steps) ++ names).map .name := by
  have hdone : start.segments.foldl cleanStep [] = startNames.reverse.map .name ++ [.root] := by
    rw [← List.reverse_inj]
    simpa [cleanSegments] using hstart
  rw [cleanSegments, foldl_cleanStep_join start hway, hdone,
    ← foldl_cleanStep_cleanSegments (isAbsolute_eq_false_iff.mp hway), hsteps, List.foldl_append,
    foldl_cleanStep_steps_back, foldl_cleanStep_names, List.drop_reverse]
  simp

/-- Cleaning does not add segments. -/
theorem length_cleanSegments_le (segments : List Segment) :
    (cleanSegments segments).length ≤ segments.length := by
  have hstep (done : List Segment) (segment : Segment) :
      (cleanStep done segment).length ≤ done.length + 1 := by
    unfold cleanStep
    split
    · omega
    · split <;> simp only [List.length_cons] <;> omega
    · exact Nat.le_refl _
  have hfold (done : List Segment) :
      (segments.foldl cleanStep done).length ≤ done.length + segments.length := by
    induction segments generalizing done with
    | nil => exact Nat.le_refl _
    | cons segment segments ih =>
        have hfirst := hstep done segment
        have hrest := ih (cleanStep done segment)
        rw [List.foldl_cons, List.length_cons]
        omega
  rw [cleanSegments, List.length_reverse]
  simpa using hfold []

/-! ## Between absolute paths -/

/-- A relative path that leads from the directory `start` to `target`. -/
structure LeadsBetween (start target way : Path) : Prop where
  isRelative : way.isAbsolute = false
  arrives : (start.resolve way).Same target.clean

/-- The empty path stays in the directory. -/
theorem resolve_empty (start : Path) : start.resolve ⟨""⟩ = start.clean := by
  refine clean_eq_of_foldl ?_
  rw [foldl_cleanStep_join start rfl, segments_empty]
  rfl

section Absolute

variable (hstart : start.isAbsolute = true) (htarget : target.isAbsolute = true)

include hstart htarget

theorem segments_relative : (start.relative target).segments =
    wayBetween (cleanSegments start.segments) (cleanSegments target.segments) :=
  segments_ofSegments_of_inner (isInner_of_mem_wayBetween htarget hstart)

/-- The way goes back over what is not shared, and then forward. -/
theorem exists_segments_relative_eq :
    ∃ shared back forth,
      cleanSegments start.segments = .root :: (shared ++ back).map .name ∧
      cleanSegments target.segments = .root :: (shared ++ forth).map .name ∧
      PartsAtOnce back forth ∧
      (start.relative target).segments =
        List.replicate back.length .parent ++ forth.map .name := by
  obtain ⟨startNames, hstartNames⟩ := isRooted_cleanSegments hstart
  obtain ⟨targetNames, htargetNames⟩ := isRooted_cleanSegments htarget
  obtain ⟨shared, back, forth, rfl, rfl, hparts, hway⟩ :=
    exists_wayBetween_eq startNames targetNames
  refine ⟨shared, back, forth, hstartNames, htargetNames, hparts, ?_⟩
  rw [segments_relative hstart htarget, hstartNames, htargetNames, ← hway]
  simp [wayBetween]

theorem isWay_relative : IsWay (start.relative target).segments := by
  obtain ⟨_, back, forth, _, _, _, hsegments⟩ := exists_segments_relative_eq hstart htarget
  exact ⟨back.length, forth, hsegments⟩

theorem leadsBetween_relative : LeadsBetween start target (start.relative target) where
  isRelative :=
    isAbsolute_eq_false_iff.mpr (root_notMem_of_isWay (isWay_relative hstart htarget))
  arrives := same_resolve_relative hstart htarget

theorem clean_relative : (start.relative target).clean = start.relative target := by
  rw [clean, cleanSegments_of_isWay (isWay_relative hstart htarget),
    segments_relative hstart htarget]
  rfl

/-- No way has fewer segments, and a clean way with as many is the one that is found. -/
theorem LeadsBetween.length_le (h : LeadsBetween start target way) :
    (start.relative target).segments.length ≤ way.segments.length ∧
      (way.clean.Same way → way.segments.length = (start.relative target).segments.length →
        way.Same (start.relative target)) := by
  obtain ⟨shared, back, forth, hstartNames, htargetNames, hparts, hsegments⟩ :=
    exists_segments_relative_eq hstart htarget
  obtain ⟨steps, names, hnames⟩ :=
    isWay_cleanSegments (isAbsolute_eq_false_iff.mp h.isRelative)
  have hfollowed := cleanSegments_join_way h.isRelative hstartNames hnames
  have harrives : cleanSegments (start.join way).segments = cleanSegments target.segments := by
    rw [← segments_clean, ← segments_clean]
    exact h.arrives
  rw [hfollowed, htargetNames, List.cons_inj_right] at harrives
  have hwhole := List.map_injective_iff.mpr (fun _ _ => Segment.name.inj) harrives
  obtain ⟨hback, hforth, hequal⟩ := back_le_and_forth_le hparts hwhole.symm
  have hlength : (cleanSegments way.segments).length = steps + names.length := by
    simp [hnames]
  have hless := length_cleanSegments_le way.segments
  have hfewest : (start.relative target).segments.length = back.length + forth.length := by
    simp [hsegments]
  refine ⟨by omega, fun hclean hsum => ?_⟩
  have hcleaned : cleanSegments way.segments = way.segments := by
    rw [← segments_clean]
    exact hclean
  rw [hcleaned] at hnames hlength
  obtain ⟨rfl, rfl⟩ := hequal (by omega)
  exact hnames.trans hsegments.symm

theorem relative_eq_empty_iff :
    start.relative target = ⟨""⟩ ↔ start.clean.Same target.clean := by
  constructor
  · intro hempty
    have harrives := (leadsBetween_relative hstart htarget).arrives
    rwa [hempty, resolve_empty] at harrives
  · intro hsame
    have hleads : LeadsBetween start target ⟨""⟩ := ⟨rfl, by rwa [resolve_empty]⟩
    have hlength := (hleads.length_le hstart htarget).1
    rw [segments_empty, List.length_nil, Nat.le_zero, List.length_eq_zero_iff] at hlength
    rw [← clean_relative hstart htarget, clean, hlength]
    rfl

end Absolute

/-- **The shortest way.**  Between absolute paths a clean way is found, of steps back and then
names, that leads to the target.  Every other way has at least as many segments, and no other clean
one has as few; so the way is empty exactly if both paths have one clean form. -/
theorem relative_shortest (hstart : start.isAbsolute = true) (htarget : target.isAbsolute = true) :
    start.resolve (start.relative target) = target.clean ∧
    LeadsBetween start target (start.relative target) ∧
    IsWay (start.relative target).segments ∧
    (start.relative target).clean = start.relative target ∧
    (∀ way, LeadsBetween start target way →
      (start.relative target).segments.length ≤ way.segments.length ∧
        (way.clean.Same way → way.segments.length = (start.relative target).segments.length →
          way.Same (start.relative target))) ∧
    (start.relative target = ⟨""⟩ ↔ start.clean.Same target.clean) := by
  have hleads := leadsBetween_relative hstart htarget
  exact ⟨clean_eq_of_same hleads.arrives, hleads, isWay_relative hstart htarget,
    clean_relative hstart htarget, fun _ hway => hway.length_le hstart htarget,
    relative_eq_empty_iff hstart htarget⟩

/-- A directory and a target below a shared one, both spelled with detours, and a way that makes a
detour over the root. -/
theorem relative_shortest_detours :
    let start : Path := ⟨"/dist/./types/card/x/.."⟩
    let target : Path := ⟨"/../dist/core"⟩
    start.isAbsolute = true ∧ target.isAbsolute = true ∧
      start.relative target = ⟨"../../core"⟩ ∧
      LeadsBetween start target ⟨"../../../../dist/core"⟩ ∧
      ∀ way, LeadsBetween start target way → 3 ≤ way.segments.length := by
  intro start target
  have hstart : start.isAbsolute = true := by decide
  have htarget : target.isAbsolute = true := by decide
  have hfound : start.relative target = ⟨"../../core"⟩ := by decide
  obtain ⟨_, _, _, _, hshortest, _⟩ := relative_shortest hstart htarget
  refine ⟨hstart, htarget, hfound, ⟨by decide, by decide⟩, fun way hway => ?_⟩
  have hlength := (hshortest way hway).1
  rw [hfound] at hlength
  exact hlength

end WebComponents.Path
