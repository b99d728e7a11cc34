import Mathlib.Data.List.Basic
import WebComponents.Path.Lexical

/-!
# The way from a directory to a target

The clean form of an absolute path is the root and names below it (`isRooted_cleanSegments`).  Two
such forms share at least the root, and the way between them goes back over the names of the one and
forward along the names of the other.  Whoever follows the way from the directory comes to the
target (`cleanSegments_append_way`):

```text
directory   /  dist  types  card        the way   ..  ..  core
target      /  dist  core               followed  / dist types | / dist | / dist core
```

A path that is built from names and `..` begins with the text of its first segment, and has no
characters but those of its segments and slashes (`text_prefix_foldl_join`, `mem_text_foldl_join`).
-/

namespace WebComponents.Path

/-! ## Absolute paths -/

/-- The root, and names below it. -/
def IsRooted (segments : List Segment) : Prop :=
  ∃ names : List String, segments = .root :: names.map .name

theorem segments_of_isAbsolute {path : Path} (h : path.isAbsolute = true) :
    path.segments = .root :: namesIn path.text.toList := by
  obtain ⟨rest, hrest⟩ := List.head?_eq_some_iff.mp (beq_iff_eq.mp h)
  rw [segments_eq, hrest]
  rfl

theorem ne_empty_of_isAbsolute {path : Path} (h : path.isAbsolute = true) : path.text ≠ "" := by
  intro hempty
  simp [isAbsolute, hempty] at h

theorem isAbsolute_of_parent? {path above : Path} (h : path.isAbsolute = true)
    (hparent : path.parent? = some above) : above.isAbsolute = true := by
  have hlead : leadChars path.text.toList = ['/'] := by
    obtain ⟨rest, hrest⟩ := List.head?_eq_some_iff.mp (beq_iff_eq.mp h)
    rw [hrest]
    rfl
  unfold parent? at hparent
  simp only [hlead] at hparent
  split at hparent
  · cases hparent
  · cases hparent
    simp [isAbsolute]

/-- The directory of an absolute path is absolute, except that the root has none. -/
theorem directory_eq_empty_or_isAbsolute {path : Path} (h : path.isAbsolute = true) :
    path.directory.text = "" ∨ path.directory.isAbsolute = true := by
  unfold directory
  cases hparent : path.parent? with
  | none => exact Or.inl rfl
  | some above => exact Or.inr (isAbsolute_of_parent? h hparent)

/-- Under names above a root, a name or a `..` leaves names above the root. -/
private theorem exists_cleanStep_eq (names : List String) {segment : Segment}
    (h : segment.IsInner) :
    ∃ later : List String,
      cleanStep (names.map .name ++ [.root]) segment = later.map .name ++ [.root] := by
  cases segment with
  | root => exact h.elim
  | current => exact h.elim
  | name text => exact ⟨text :: names, rfl⟩
  | parent =>
      cases names with
      | nil => exact ⟨[], rfl⟩
      | cons name names => exact ⟨names, rfl⟩

private theorem exists_foldl_cleanStep_eq (names : List String) {segments : List Segment}
    (h : ∀ segment ∈ segments, segment.IsInner) :
    ∃ later : List String,
      segments.foldl cleanStep (names.map .name ++ [.root]) = later.map .name ++ [.root] := by
  induction segments generalizing names with
  | nil => exact ⟨names, rfl⟩
  | cons segment segments ih =>
      obtain ⟨hsegment, hsegments⟩ := List.forall_mem_cons.mp h
      obtain ⟨later, hlater⟩ := exists_cleanStep_eq names hsegment
      rw [List.foldl_cons, hlater]
      exact ih later hsegments

theorem isRooted_cleanSegments {path : Path} (h : path.isAbsolute = true) :
    IsRooted (cleanSegments path.segments) := by
  have hinner : ∀ segment ∈ namesIn path.text.toList, segment.IsInner :=
    fun _ => isInner_of_mem_namesIn
  obtain ⟨names, hnames⟩ := exists_foldl_cleanStep_eq [] hinner
  refine ⟨names.reverse, ?_⟩
  rw [segments_of_isAbsolute h, cleanSegments, List.foldl_cons]
  change ((namesIn path.text.toList).foldl cleanStep ([].map .name ++ [.root])).reverse = _
  rw [hnames, List.reverse_append, List.map_reverse]
  rfl

/-- Cleaning only takes segments away. -/
theorem mem_of_mem_cleanSegments {segments : List Segment} {segment : Segment}
    (h : segment ∈ cleanSegments segments) : segment ∈ segments := by
  have hfold (done : List Segment) :
      segment ∈ segments.foldl cleanStep done → segment ∈ done ∨ segment ∈ segments := by
    clear h
    induction segments generalizing done with
    | nil => exact Or.inl
    | cons next segments ih =>
        intro h
        rcases ih _ h with hstep | hmem
        · have hnext : segment ∈ done ∨ segment = next := by
            cases next with
            | root => exact (List.mem_cons.mp hstep).symm
            | current => exact Or.inl hstep
            | name text => exact (List.mem_cons.mp hstep).symm
            | parent =>
                match done, hstep with
                | [], hstep => exact (List.mem_cons.mp hstep).symm
                | .name _ :: _, hstep => exact Or.inl (List.mem_cons_of_mem _ hstep)
                | .root :: _, hstep => exact Or.inl hstep
                | .parent :: _, hstep => exact (List.mem_cons.mp hstep).symm
                | .current :: _, hstep => exact (List.mem_cons.mp hstep).symm
          exact hnext.imp_right fun heq => by simp [heq]
        · exact Or.inr (List.mem_cons_of_mem _ hmem)
  exact (hfold [] (by simpa [cleanSegments] using h)).resolve_left (by simp)

theorem isInner_of_cleanSegments_eq {path : Path} {names : List String}
    (h : cleanSegments path.segments = .root :: names.map .name) :
    ∀ segment ∈ names.map Segment.name, segment.IsInner := by
  intro segment hsegment
  obtain ⟨name, _, rfl⟩ := List.mem_map.mp hsegment
  have hclean : Segment.name name ∈ cleanSegments path.segments := by
    rw [h]
    exact List.mem_cons_of_mem _ hsegment
  exact isName_of_mem_segments (mem_of_mem_cleanSegments hclean)

/-! ## The way -/

theorem wayBetween_append (start rest : List Segment) :
    wayBetween start (start ++ rest) = rest := by
  induction start with
  | nil => cases rest <;> rfl
  | cons segment start ih => simpa [wayBetween] using ih

/-- A way that begins with a name only leads on. -/
theorem eq_append_of_wayBetween {start target rest : List Segment} {name : String}
    (h : wayBetween start target = .name name :: rest) : target = start ++ .name name :: rest := by
  induction start generalizing target with
  | nil =>
      cases target with
      | nil => cases h
      | cons next target => exact h
  | cons segment start ih =>
      cases target with
      | nil => cases h
      | cons next target =>
          by_cases hsame : segment = next
          · subst hsame
            rw [wayBetween, if_pos rfl] at h
            rw [ih h, List.cons_append]
          · simp [wayBetween, hsame] at h

theorem eq_parent_or_mem_of_mem_wayBetween {start target : List Segment} {segment : Segment}
    (h : segment ∈ wayBetween start target) : segment = .parent ∨ segment ∈ target := by
  have hback {front back : List Segment}
      (h : segment ∈ front.map (fun _ => Segment.parent) ++ back) :
      segment = .parent ∨ segment ∈ back := by
    rcases List.mem_append.mp h with h | h
    · obtain ⟨_, _, rfl⟩ := List.mem_map.mp h
      exact Or.inl rfl
    · exact Or.inr h
  fun_induction wayBetween start target with
  | case1 start next target ih => exact (ih h).imp_right (List.mem_cons_of_mem _)
  | case2 => exact hback h
  | case3 => exact hback h

/-- The way between absolute paths goes along names and `..`. -/
theorem isInner_of_mem_wayBetween {start target : Path} (htarget : target.isAbsolute = true)
    (hstart : start.isAbsolute = true) :
    ∀ segment ∈ wayBetween (cleanSegments start.segments) (cleanSegments target.segments),
      segment.IsInner := by
  obtain ⟨fromRoot, hfrom⟩ := isRooted_cleanSegments hstart
  obtain ⟨toRoot, hto⟩ := isRooted_cleanSegments htarget
  intro segment h
  rw [hfrom, hto, wayBetween, if_pos rfl] at h
  rcases eq_parent_or_mem_of_mem_wayBetween h with rfl | hmem
  · trivial
  · exact isInner_of_cleanSegments_eq hto segment hmem

theorem foldl_cleanStep_names (done : List Segment) (names : List String) :
    (names.map Segment.name).foldl cleanStep done = (names.map Segment.name).reverse ++ done := by
  induction names generalizing done with
  | nil => rfl
  | cons name names ih =>
      rw [List.map_cons, List.foldl_cons, ih]
      simp [cleanStep]

/-- As many steps back as there are names take all names away. -/
private theorem foldl_cleanStep_back (done : List Segment) (names steps : List String)
    (h : steps.length = names.length) :
    (steps.map fun _ => Segment.parent).foldl cleanStep (names.map Segment.name ++ done) =
      done := by
  induction names generalizing steps with
  | nil => rw [List.eq_nil_of_length_eq_zero h]; rfl
  | cons name names ih =>
      cases steps with
      | nil => cases h
      | cons step steps => exact ih steps (Nat.succ.inj h)

theorem foldl_cleanStep_wayBetween (done : List Segment) (start target : List String) :
    (wayBetween (start.map Segment.name) (target.map Segment.name)).foldl cleanStep
        ((start.map Segment.name).reverse ++ done) =
      (target.map Segment.name).reverse ++ done := by
  -- where the names part, all of the one are gone back and all of the other follow
  have hover (done : List Segment) (start target : List String) :
      ((start.map Segment.name).map (fun _ => Segment.parent) ++
          target.map Segment.name).foldl cleanStep ((start.map Segment.name).reverse ++ done) =
        (target.map Segment.name).reverse ++ done := by
    have hback := foldl_cleanStep_back done start.reverse start (by simp)
    rw [List.map_reverse] at hback
    have hmap : (start.map Segment.name).map (fun _ => Segment.parent) =
        start.map fun _ => Segment.parent := List.map_map
    rw [List.foldl_append, hmap, hback, foldl_cleanStep_names]
  induction start generalizing target done with
  | nil =>
      cases target with
      | nil => rfl
      | cons next target => exact hover done [] (next :: target)
  | cons first start ih =>
      cases target with
      | nil => exact hover done (first :: start) []
      | cons next target =>
          by_cases hsame : first = next
          · -- a shared name stays where it is, below what follows
            subst hsame
            simpa [wayBetween] using ih (.name first :: done) target
          · have hway : wayBetween ((first :: start).map Segment.name)
                ((next :: target).map Segment.name) =
                ((first :: start).map Segment.name).map (fun _ => Segment.parent) ++
                  (next :: target).map Segment.name := by
              simp [wayBetween, hsame]
            rw [hway]
            exact hover done (first :: start) (next :: target)

/-- Whoever follows the way from the directory, and then goes on, goes on from the target. -/
theorem cleanSegments_append_way {start target : List Segment}
    (hstart : IsRooted (cleanSegments start)) (htarget : IsRooted (cleanSegments target))
    (more : List Segment) :
    cleanSegments (start ++ wayBetween (cleanSegments start) (cleanSegments target) ++ more) =
      cleanSegments (target ++ more) := by
  have hdone (segments : List Segment) :
      segments.foldl cleanStep [] = (cleanSegments segments).reverse := by simp [cleanSegments]
  obtain ⟨fromRoot, hfrom⟩ := hstart
  obtain ⟨toRoot, hto⟩ := htarget
  have hway : wayBetween (.root :: fromRoot.map .name) (.root :: toRoot.map .name) =
      wayBetween (fromRoot.map .name) (toRoot.map .name) := by simp [wayBetween]
  have hfollowed :
      (start ++ wayBetween (cleanSegments start) (cleanSegments target)).foldl cleanStep [] =
        target.foldl cleanStep [] := by
    rw [List.foldl_append, hdone start, hdone target, hfrom, hto, hway, List.reverse_cons,
      List.reverse_cons]
    exact foldl_cleanStep_wayBetween [.root] fromRoot toRoot
  rw [cleanSegments, List.foldl_append, hfollowed, ← List.foldl_append]
  rfl

/-! ## The text of a built path -/

variable {base : Path} {segment : Segment} {segments : List Segment} {c : Char}

theorem isAbsolute_of_isInner (h : segment.IsInner) :
    (Path.mk segment.text).isAbsolute = false := by
  cases segment with
  | root => exact h.elim
  | current => exact h.elim
  | parent => decide
  | name text =>
      simp only [isAbsolute, Segment.text, beq_eq_false_iff_ne, ne_eq]
      exact fun hhead => h.2.1 (List.mem_of_mem_head? hhead)

theorem segments_ofSegments_of_inner (h : ∀ segment ∈ segments, segment.IsInner) :
    (ofSegments segments).segments = segments :=
  segments_ofSegments (isSegments_of_inner h)

theorem isAbsolute_eq_false_of_inner {path : Path}
    (h : ∀ segment ∈ path.segments, segment.IsInner) : path.isAbsolute = false := by
  by_contra habsolute
  have hsegments := segments_of_isAbsolute (by simpa using habsolute)
  exact h .root (by simp [hsegments])

theorem filter_eq_self_of_inner (h : ∀ segment ∈ segments, segment.IsInner) :
    segments.filter (· ≠ .current) = segments := by
  refine List.filter_eq_self.mpr fun segment hsegment => ?_
  have hinner := h segment hsegment
  cases segment with
  | current => exact hinner.elim
  | _ => rfl

theorem segments_join_of_inner {path : Path} (hbase : base.text ≠ "")
    (h : ∀ segment ∈ path.segments, segment.IsInner) :
    (base.join path).segments = base.segments ++ path.segments := by
  rw [segments_join hbase (isAbsolute_eq_false_of_inner h), filter_eq_self_of_inner h]

/-- A target is found again from where it was told. -/
theorem same_resolve_relative {root target : Path} (hroot : root.isAbsolute = true)
    (htarget : target.isAbsolute = true) :
    (root.resolve (root.relative target)).Same target.clean := by
  have hne := ne_empty_of_isAbsolute hroot
  have hinner := isInner_of_mem_wayBetween htarget hroot
  have hway : (root.relative target).segments =
      wayBetween (cleanSegments root.segments) (cleanSegments target.segments) :=
    segments_ofSegments_of_inner hinner
  have hfollowed := cleanSegments_append_way (isRooted_cleanSegments hroot)
    (isRooted_cleanSegments htarget) []
  rw [List.append_nil, List.append_nil] at hfollowed
  change Path.segments _ = Path.segments _
  rw [resolve, segments_clean, segments_clean, segments_join_of_inner hne (hway ▸ hinner), hway]
  exact hfollowed

/-- Joining puts a slash between, where there is something to separate and no slash yet. -/
theorem toList_join {path : Path} (h : path.isAbsolute = false) :
    (base.join path).text.toList = base.text.toList ++
      (if base.text.isEmpty || base.endsWithSlash then [] else ['/']) ++ path.text.toList := by
  unfold join
  rw [if_neg (by simp [h])]
  split <;> simp

theorem text_prefix_join {path : Path} (h : path.isAbsolute = false) :
    base.text.toList <+: (base.join path).text.toList := by
  rw [toList_join h, List.append_assoc]
  exact List.prefix_append _ _

theorem mem_text_join_iff {path : Path} (h : path.isAbsolute = false) (hc : c ≠ '/') :
    c ∈ (base.join path).text.toList ↔ c ∈ base.text.toList ∨ c ∈ path.text.toList := by
  rw [toList_join h, List.mem_append, List.mem_append]
  split <;> simp [hc]

theorem text_prefix_foldl_join (base : Path) (h : ∀ segment ∈ segments, segment.IsInner) :
    base.text.toList <+:
      (segments.foldl (fun path segment => path.join ⟨segment.text⟩) base).text.toList := by
  induction segments generalizing base with
  | nil => exact List.prefix_rfl
  | cons segment segments ih =>
      obtain ⟨hsegment, hsegments⟩ := List.forall_mem_cons.mp h
      exact (text_prefix_join (isAbsolute_of_isInner hsegment)).trans (ih _ hsegments)

theorem mem_text_foldl_join (h : ∀ segment ∈ segments, segment.IsInner)
    (hc : c ∈ (segments.foldl (fun path segment => path.join ⟨segment.text⟩) base).text.toList) :
    c ∈ base.text.toList ∨ c = '/' ∨ ∃ segment ∈ segments, c ∈ segment.text.toList := by
  induction segments generalizing base with
  | nil => exact Or.inl hc
  | cons segment segments ih =>
      obtain ⟨hsegment, hsegments⟩ := List.forall_mem_cons.mp h
      rcases ih hsegments hc with hbase | rfl | ⟨other, hother, hc⟩
      · rw [toList_join (isAbsolute_of_isInner hsegment)] at hbase
        rcases List.mem_append.mp hbase with hbase | hc
        · rcases List.mem_append.mp hbase with hc | hslash
          · exact Or.inl hc
          · refine Or.inr (Or.inl ?_)
            split at hslash
            · cases hslash
            · simpa using hslash
        · exact Or.inr (Or.inr ⟨segment, List.mem_cons_self, hc⟩)
      · exact Or.inr (Or.inl rfl)
      · exact Or.inr (Or.inr ⟨other, List.mem_cons_of_mem _ hother, hc⟩)

theorem isAbsolute_of_prefix {start longer : Path} (h : start.isAbsolute = true)
    (hlonger : start.text.toList <+: longer.text.toList) : longer.isAbsolute = true := by
  obtain ⟨rest, hrest⟩ := List.head?_eq_some_iff.mp (beq_iff_eq.mp h)
  obtain ⟨more, hmore⟩ := hlonger
  rw [isAbsolute, ← hmore, hrest]
  rfl

theorem isAbsolute_join {path : Path} (hbase : base.isAbsolute = true)
    (hpath : path.isAbsolute = false) : (base.join path).isAbsolute = true :=
  isAbsolute_of_prefix hbase (text_prefix_join hpath)

/-- Reading a path in an absolute directory makes it absolute. -/
theorem isAbsolute_of_absolute? {path whole : Path} (hbase : base.isAbsolute = true)
    (h : path.absolute? base = some whole) : whole.isAbsolute = true := by
  have hinner : ∀ segment ∈ path.segments.filter
      (fun segment => segment != .root && segment != .current), segment.IsInner := by
    intro segment hmem
    obtain ⟨hsegment, hne⟩ := List.mem_filter.mp hmem
    cases segment with
    | root => exact absurd hne (by decide)
    | current => exact absurd hne (by decide)
    | parent => trivial
    | name text => exact isName_of_mem_segments hsegment
  unfold absolute? at h
  simp only at h
  split at h
  · cases h
  have hstart : Path.isAbsolute (if !path.isAbsolute then base
      else if ['/', '/'].isPrefixOf path.text.toList &&
        !(['/', '/', '/'].isPrefixOf path.text.toList) then ⟨"//"⟩ else ⟨"/"⟩) = true := by
    split
    · exact hbase
    · split <;> decide
  have hwhole := isAbsolute_of_prefix hstart (text_prefix_foldl_join _ hinner)
  split at h
  · cases h
    exact isAbsolute_join hwhole (by decide)
  · cases h
    exact hwhole

/-- The characters of a name in a path are characters of the path. -/
theorem mem_text_of_mem_segments {path : Path} {name : String}
    (h : .name name ∈ path.segments) (hc : c ∈ name.toList) : c ∈ path.text.toList := by
  have hnames : .name name ∈ namesIn path.text.toList := by
    rw [segments_eq, List.mem_append] at h
    refine h.resolve_left fun hlead => ?_
    unfold leadSegments at hlead
    split at hlead <;> simp at hlead
  obtain ⟨piece, hpiece, hsegment⟩ := List.mem_filterMap.mp hnames
  -- the name is a piece of the text, and the pieces join to the text
  have hname : piece = name.toList := by
    unfold segment? at hsegment
    split at hsegment
    · cases hsegment
    · split at hsegment
      · cases hsegment
      · simp only [Option.some.injEq, Segment.name.injEq] at hsegment
        rw [← hsegment, String.toList_ofList]
  rw [← Text.join_split '/' path.text.toList]
  subst hname
  have hjoin (pieces : List (List Char)) (h : name.toList ∈ pieces) :
      c ∈ Text.join '/' pieces := by
    induction pieces with
    | nil => cases h
    | cons piece pieces ih =>
        cases pieces with
        | nil =>
            rw [List.mem_singleton] at h
            simpa [Text.join, ← h] using hc
        | cons next pieces =>
            rcases List.mem_cons.mp h with rfl | h
            · exact List.mem_append_left _ hc
            · exact List.mem_append_right _ (List.mem_cons_of_mem _ (ih h))
  exact hjoin _ hpiece

end WebComponents.Path
