import WebComponents.Proofs.Files.Branches

/-!
# Building plain paths

Names that are joined to a plain path lead from its location to the one below
(`IsPlain.join`, `locationOf_join`), and no slash comes after them (`stepsOf_join`).  So such a path
stands for something exactly if there is something at its location (`holds_iff_lookup`).
-/

namespace WebComponents.Files.FileTree

open WebComponents.Path

variable {tree : FileTree} {base path root : Path} {text : String} {names : List String}

/-! ## Joined paths -/

theorem IsPlain.ne_empty (h : IsPlain path) : path.text ≠ "" :=
  ne_empty_of_isAbsolute h.isAbsolute

theorem IsPlain.join_of_relative (h : IsPlain base) (hpath : path.isAbsolute = false)
    (hnames : ∀ step ∈ entrySteps path, ∃ name, step = .name name) : IsPlain (base.join path) where
  isAbsolute := isAbsolute_join h.isAbsolute hpath
  stay_notMem := by
    rw [entrySteps_join_of_relative base hpath, List.mem_append, not_or]
    refine ⟨h.stay_notMem, fun hstay => ?_⟩
    obtain ⟨_, hname⟩ := hnames _ hstay
    cases hname
  up_notMem := by
    rw [entrySteps_join_of_relative base hpath, List.mem_append, not_or]
    refine ⟨h.up_notMem, fun hup => ?_⟩
    obtain ⟨_, hname⟩ := hnames _ hup
    cases hname

theorem IsPlain.join (h : IsPlain base) (hname : IsName text) : IsPlain (base.join ⟨text⟩) := by
  refine h.join_of_relative (isAbsolute_name hname) fun step hstep => ?_
  rw [entrySteps_name hname, List.mem_singleton] at hstep
  exact ⟨text, hstep⟩

theorem IsPlain.join_empty (h : IsPlain base) : IsPlain (base.join ⟨""⟩) :=
  h.join_of_relative rfl (by simp [entrySteps_of_empty])

theorem IsPlain.foldl_join (h : IsPlain base) (hnames : ∀ name ∈ names, IsName name) :
    IsPlain ((names.map Segment.name).foldl (fun path segment => path.join ⟨segment.text⟩)
      base) := by
  induction names generalizing base with
  | nil => exact h
  | cons name names ih =>
      obtain ⟨hname, hnames⟩ := List.forall_mem_cons.mp hnames
      exact ih (h.join hname) hnames

theorem locationOf_join (base : Path) (hname : IsName text) :
    locationOf (base.join ⟨text⟩) = locationOf base ++ [text] := by
  rw [locationOf, entrySteps_join base hname, List.foldl_append]
  rfl

/-- No slash comes after a name that was joined. -/
theorem stepsOf_join (base : Path) (hname : IsName text) :
    stepsOf (base.join ⟨text⟩).text.toList = entrySteps (base.join ⟨text⟩) := by
  refine stepsOf_of_getLast? ?_
  rw [toList_join (isAbsolute_name hname), List.getLast?_append_of_ne_nil _ hname.1]
  exact fun hlast => hname.2.1 (List.mem_of_getLast? hlast)

/-- What the path of a base begins with is taken by the system if the longer path is. -/
theorem checkPath_of_join (hpath : path.isAbsolute = false) (hne : base.text ≠ "")
    (h : checkPath (base.join path) = .ok ()) : checkPath base = .ok () :=
  checkPath_of_prefix (text_prefix_join hpath) hne h

/-! ## Clean paths -/

/-- An absolute path that is spelled in its clean form is plain. -/
theorem isPlain_of_clean (habsolute : path.isAbsolute = true) (hclean : path.clean = path) :
    IsPlain path := by
  obtain ⟨names, hnames⟩ := isRooted_cleanSegments habsolute
  have hinner := isInner_of_cleanSegments_eq hnames
  have hroot : IsPlain ⟨"/"⟩ := ⟨by decide, by decide, by decide⟩
  rw [← hclean, clean, hnames, ofSegments, List.foldl_cons]
  exact hroot.foldl_join fun name hname => hinner _ (List.mem_map_of_mem hname)

theorem IsPlain.same_clean (h : IsPlain path) : path.clean.Same path := by
  change Path.segments _ = _
  rw [segments_clean, cleanSegments_of_isAbsolute h.isAbsolute, h.segments_eq]

/-! ## What is there -/

theorem holds_iff_lookup (hground : tree.IsGrounded) (hplain : IsPlain path)
    (hcheck : checkPath path = .ok ()) (hshort : ∀ name ∈ locationOf path, IsShort name)
    (hslash : stepsOf path.text.toList = entrySteps path) :
    tree.holds path = true ↔ (tree.lookup (locationOf path)).isSome = true := by
  rw [holds_iff]
  constructor
  · rintro ⟨location, entry, hspot, hentry⟩
    rw [← eq_locationOf_of_spotOf hground.hasNoLinks hplain.isAbsolute hspot, hentry]
    rfl
  · intro hsome
    obtain ⟨entry, hentry⟩ := Option.isSome_iff_exists.mp hsome
    exact ⟨_, entry, spotOf_of_lookup hground hplain hcheck hshort hentry (Or.inr hslash), hentry⟩

/-- Content can be put under a name that is not that of a directory. -/
theorem contentError?_eq_none (hcheck : checkPath path = .ok ())
    (hlast : (stepsOf path.text.toList).getLast? = some (.name text)) (hshort : IsShort text)
    (hfree : tree.lookup (locationOf path) ≠ some .directory) : tree.contentError? path = none := by
  unfold contentError?
  rw [hcheck, hlast]
  simp only [if_neg (Nat.not_lt.mpr hshort), if_neg hfree]

end WebComponents.Files.FileTree
