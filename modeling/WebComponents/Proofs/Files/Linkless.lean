import WebComponents.Proofs.Files.Refilling
import WebComponents.Proofs.Path.Ways

/-!
# Trees without links

In a tree without symbolic links the text of a path alone decides where it leads, if it leads
anywhere: a name is one location further, `..` is one back (`locationOf`).  This is what `clean`
does with the segments of an absolute path (`cleanSegments_of_isAbsolute`), so two absolute paths
that lead to one file have the same clean form, and so have their directories
(`cleanSegments_directory_eq`). -/

namespace WebComponents.Files.FileTree

open Text WebComponents.Path

variable {tree : FileTree} {path other : Path} {here there location : Location} {links : Nat}
  {steps : List Step} {content : ByteArray}

/-- There are directories and regular files only. -/
def HasNoLinks (tree : FileTree) : Prop :=
  ∀ location target, tree.lookup location ≠ some (.link target)

theorem hasNoLinks_of_entries (h : ∀ pair ∈ tree.entries, ∀ target, pair.2 ≠ .link target) :
    tree.HasNoLinks := by
  intro location target hlookup
  unfold lookup at hlookup
  split at hlookup
  · cases hlookup
  · exact h _ (mem_of_lookupIn_eq_some hlookup) target rfl

/-! ## Steps and segments -/

/-- Where a step leads if no link is in the way. -/
def stepFrom (here : Location) : Step → Location
  | .stay => here
  | .slash => here
  | .up => here.dropLast
  | .name name => here ++ [name]

/-- The location that an absolute path names by its text. -/
def locationOf (path : Path) : Location :=
  (entrySteps path).foldl stepFrom []

theorem Leads.eq_foldl (h : tree.Leads links here steps there) (hlinks : tree.HasNoLinks) :
    there = steps.foldl stepFrom here := by
  induction h with
  | arrived => rfl
  | stay _ ih => exact ih
  | slash _ ih => exact ih
  | up _ ih => exact ih
  | directory _ _ _ ih => exact ih
  | file => rfl
  | link _ hlookup => exact absurd hlookup (hlinks _ _)

theorem foldl_stepFrom_stepsOf (path : Path) :
    (stepsOf path.text.toList).foldl stepFrom [] = locationOf path := by
  rcases stepsOf_eq_or path with heq | heq
  · rw [heq, locationOf]
  · rw [heq, List.foldl_append, locationOf]
    rfl

theorem eq_locationOf_of_spotOf (hlinks : tree.HasNoLinks) (habsolute : path.isAbsolute = true)
    (h : tree.spotOf false path = .ok (.found location)) : location = locationOf path := by
  obtain ⟨_, hleads⟩ := spotOf_eq_found_iff.mp h
  rw [startOf_of_isAbsolute habsolute] at hleads
  rw [hleads.eq_foldl hlinks, foldl_stepFrom_stepsOf]

/-- A location as a stack of segments, its last name first. -/
def segmentStack (here : Location) : List Segment :=
  here.reverse.map .name ++ [.root]

theorem cleanStep_parent_segmentStack (here : Location) :
    cleanStep (segmentStack here) .parent = segmentStack here.dropLast := by
  rcases List.eq_nil_or_concat here with rfl | ⟨front, name, rfl⟩
  · rfl
  · rw [List.concat_eq_append, List.dropLast_concat]
    simp [segmentStack, cleanStep]

/-- Cleaning the segments of pieces goes where the steps of the pieces go. -/
theorem foldl_cleanStep_segmentStack (pieces : List (List Char)) (here : Location) :
    (pieces.filterMap segment?).foldl cleanStep (segmentStack here) =
      segmentStack ((pieceSteps pieces).foldl stepFrom here) := by
  induction pieces generalizing here with
  | nil => rfl
  | cons piece pieces ih =>
      rw [← List.singleton_append (l := pieces), pieceSteps_append, List.foldl_append,
        List.filterMap_append, List.foldl_append, ← ih]
      congr 1
      unfold pieceSteps segment? isVoid stepOf
      by_cases hempty : piece = []
      · simp [hempty]
      by_cases hdot : piece = ['.']
      · simp [hdot, stepFrom]
      by_cases hdots : piece = ['.', '.']
      · simp [hdots, stepFrom, cleanStep_parent_segmentStack]
      · simp [hempty, hdot, hdots, stepFrom, segmentStack, cleanStep]

theorem cleanSegments_of_isAbsolute (h : path.isAbsolute = true) :
    cleanSegments path.segments = .root :: (locationOf path).map .name := by
  have hfold := foldl_cleanStep_segmentStack (split (· == '/') path.text.toList) []
  rw [← entrySteps_eq] at hfold
  rw [segments_of_isAbsolute h, cleanSegments]
  change ((namesIn path.text.toList).foldl cleanStep (segmentStack [])).reverse = _
  rw [namesIn, hfold, segmentStack, List.reverse_append, List.map_reverse, List.reverse_reverse]
  rfl

/-! ## The directory of a file -/

/-- A `.` or a slash stays where it is. -/
theorem foldl_stepFrom_of_still (h : ∀ step ∈ steps, step = .stay ∨ step = .slash) :
    steps.foldl stepFrom here = here := by
  induction steps generalizing here with
  | nil => rfl
  | cons step steps ih =>
      obtain ⟨hstep, hsteps⟩ := List.forall_mem_cons.mp h
      rw [List.foldl_cons, ih hsteps]
      rcases hstep with rfl | rfl <;> rfl

theorem entrySteps_of_parent?_eq_none (h : path.parent? = none) :
    ∀ step ∈ entrySteps path, step = .stay := by
  obtain ⟨voids, hbody, hvoids⟩ := exists_dropVoidEnd_append (bodyPieces path.text.toList)
  have hkept : dropVoidEnd (bodyPieces path.text.toList) = [] := by
    unfold parent? at h
    simp only at h
    split at h
    · assumption
    · cases h
  rw [hkept, List.nil_append] at hbody
  intro step hstep
  rw [entrySteps_eq_lead, List.mem_append] at hstep
  rcases hstep with hlead | hvoid
  · unfold leadSteps at hlead
    split at hlead
    · exact List.mem_singleton.mp hlead
    · cases hlead
  · rw [hbody] at hvoid
    exact pieceSteps_of_void hvoids step hvoid

/-- A walk that ends without a name ends in a directory, so the path of a file ends with a name. -/
theorem exists_name_of_spotOf (habsolute : path.isAbsolute = true)
    (hspot : tree.spotOf false path = .ok (.found location))
    (hfile : tree.lookup location = some (.file content)) :
    ∃ name, (stepsOf path.text.toList).getLast? = some (.name name) := by
  by_contra hnone
  push Not at hnone
  obtain ⟨_, hleads⟩ := spotOf_eq_found_iff.mp hspot
  rw [startOf_of_isAbsolute habsolute] at hleads
  have hreached := hleads.isReached (isReached_root tree) hnone location List.prefix_rfl
  rw [hfile] at hreached
  cases hreached

/-- The path of a file leads from its directory to a name in it. -/
theorem exists_locationOf_eq (habsolute : path.isAbsolute = true)
    (hspot : tree.spotOf false path = .ok (.found location))
    (hfile : tree.lookup location = some (.file content)) :
    path.directory.isAbsolute = true ∧
      ∃ name, locationOf path = locationOf path.directory ++ [name] := by
  obtain ⟨name, hname⟩ := exists_name_of_spotOf habsolute hspot hfile
  have hsteps : stepsOf path.text.toList = entrySteps path := by
    rcases stepsOf_eq_or path with heq | heq
    · exact heq
    · rw [heq, List.getLast?_concat] at hname
      cases hname
  rw [hsteps] at hname
  cases hparent : path.parent? with
  | none =>
      have hstay := entrySteps_of_parent?_eq_none hparent _ (List.mem_of_getLast? hname)
      cases hstay
  | some above =>
      have hdirectory : path.directory = above := by rw [directory, hparent]; rfl
      have habove := isAbsolute_of_parent? habsolute hparent
      have hne := ne_empty_of_isAbsolute habove
      obtain ⟨between, last, after, hentry, hbetween, _, hafter⟩ := entrySteps_parent hparent hne
      rw [hdirectory]
      refine ⟨habove, name, ?_⟩
      -- what comes after the last step would be a `.`, and the last one is a name
      obtain rfl : after = [] := by
        rcases List.eq_nil_or_concat after with hnil | ⟨front, step, hconcat⟩
        · exact hnil
        · have hstep : step = .stay := hafter step (by simp [hconcat])
          rw [hentry, hconcat, hstep, List.concat_eq_append, ← List.cons_append,
            ← List.append_assoc, List.getLast?_concat] at hname
          cases hname
      rw [hentry, List.getLast?_concat] at hname
      cases hname
      have hstill : ∀ step ∈ between, step = .stay ∨ step = .slash :=
        fun step hstep => Or.inl (hbetween step hstep)
      rw [locationOf, hentry, List.foldl_append, List.foldl_append, foldl_stepFrom_of_still hstill]
      rfl

/-- Absolute paths that lead to one file have directories with one clean form. -/
theorem cleanSegments_directory_eq (hlinks : tree.HasNoLinks) (habsolute : path.isAbsolute = true)
    (hother : other.isAbsolute = true) (hspot : tree.spotOf false path = .ok (.found location))
    (hspot' : tree.spotOf false other = .ok (.found location))
    (hfile : tree.lookup location = some (.file content)) :
    cleanSegments path.directory.segments = cleanSegments other.directory.segments := by
  obtain ⟨hdirectory, name, hname⟩ := exists_locationOf_eq habsolute hspot hfile
  obtain ⟨hdirectory', name', hname'⟩ := exists_locationOf_eq hother hspot' hfile
  have hsame : locationOf path.directory ++ [name] = locationOf other.directory ++ [name'] := by
    rw [← hname, ← hname', ← eq_locationOf_of_spotOf hlinks habsolute hspot,
      ← eq_locationOf_of_spotOf hlinks hother hspot']
  rw [cleanSegments_of_isAbsolute hdirectory, cleanSegments_of_isAbsolute hdirectory',
    (List.append_inj' hsame rfl).1]

end WebComponents.Files.FileTree
