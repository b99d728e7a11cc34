import Mathlib.Data.List.Basic
import WebComponents.Proofs.Files.Walk

/-!
# Making directories

A directory is made at a free location inside a directory that its path leads to
(`exists_of_create_eq_ok`).  Making a directory with all that are missing above it

* adds directories and nothing else, also if it fails (`adds_createDirectories`);
* leads to a directory if it succeeds (`leads_of_createDirectories`);
* adds nothing if the path leads to a directory already (`createDirectories_of_leads`).
-/

namespace WebComponents.Files

namespace FileTree

variable {tree made : FileTree} {path : Path} {above : List Path} {entry : Entry}
  {here there : Location} {links : Nat} {steps : List Step}

/-! ## One entry -/

/-- A creation puts the entry at a free location, inside the directory that the steps before the
last name lead to. -/
theorem exists_of_create_eq_ok (h : tree.create path entry = .ok made) :
    ∃ before name directory, entrySteps path = before ++ [.name name] ∧
      tree.Leads maxLinks (tree.startOf path) (before ++ [.stay]) directory ∧
      name.utf8ByteSize ≤ maxNameLength ∧ tree.lookup (directory ++ [name]) = none ∧
      made = tree.put (directory ++ [name]) entry := by
  unfold create at h
  obtain ⟨_, _, h⟩ := bind_eq_ok_iff.mp h
  split at h
  · rename_i name hlast
    obtain ⟨before, hbefore⟩ := List.getLast?_eq_some_iff.mp hlast
    obtain ⟨spot, hwalk, h⟩ := bind_eq_ok_iff.mp h
    rw [hbefore, List.dropLast_concat] at hwalk
    split at h
    · cases h
    · rename_i directory
      split at h
      · cases h
      · rename_i hlength
        split at h
        · cases h
        · rename_i hfree
          cases h
          exact ⟨before, name, directory, hbefore, leads_of_walk hwalk, Nat.not_lt.mp hlength,
            by simpa using hfree, rfl⟩
  · obtain ⟨_, _, h⟩ := bind_eq_ok_iff.mp h
    cases h

theorem Leads.isSome_lookup {name : String}
    (h : tree.Leads links here (.name name :: steps) there) :
    name.utf8ByteSize ≤ maxNameLength ∧ (tree.lookup (here ++ [name])).isSome = true := by
  cases h with
  | directory hlength hlookup => exact ⟨hlength, by rw [hlookup]; rfl⟩
  | file hlength hlookup => exact ⟨hlength, by rw [hlookup]; rfl⟩
  | link hlength hlookup => exact ⟨hlength, by rw [hlookup]; rfl⟩

/-- Where a directory is nothing is created, and not because something is missing. -/
theorem create_eq_error_of_leads
    (h : tree.Leads maxLinks (tree.startOf path) (entrySteps path ++ [.stay]) there)
    (hne : path.text ≠ "") (entry : Entry) :
    ∃ error, tree.create path entry = .error error ∧ error ≠ .notFound := by
  unfold create
  cases hcheck : checkPath path with
  | error error =>
      exact ⟨error, rfl, ne_notFound_of_checkPath hne hcheck⟩
  | ok _ =>
      simp only [Bind.bind, Except.bind]
      split
      · rename_i name hlast
        obtain ⟨before, hbefore⟩ := List.getLast?_eq_some_iff.mp hlast
        rw [hbefore, List.append_assoc] at h
        obtain ⟨left, mid, hmid, hname⟩ := exists_leads_of_append h (List.cons_ne_nil _ _)
        obtain ⟨hlength, hsome⟩ := hname.isSome_lookup
        rw [hbefore, List.dropLast_concat, hmid.walk_eq]
        exact ⟨.alreadyExists, by simp only [if_neg (Nat.not_lt.mpr hlength), if_pos hsome], nofun⟩
      · obtain ⟨left, hon⟩ := h.append
        have hthere := hon [] there .arrived
        rw [List.append_nil] at hthere
        rw [hthere.walk_eq]
        exact ⟨.alreadyExists, rfl, nofun⟩

/-- Nothing is made or found for a path that the system does not take. -/
theorem makeDirectory_of_checkPath {cause : SystemError} (h : checkPath path = .error cause) :
    tree.makeDirectory path = .error cause ∧ tree.isDirectory path = false := by
  constructor
  · rw [makeDirectory, create, h]
    rfl
  · rw [isDirectory, entryOf, spotOf, h]
    rfl

theorem adds_of_create_eq_ok (h : tree.create path entry = .ok made) :
    tree.Adds (· = entry) made := by
  obtain ⟨_, _, _, _, _, _, hfree, rfl⟩ := exists_of_create_eq_ok h
  exact (Adds.refl _ tree).put hfree rfl

/-- The path of a directory that was made leads to it. -/
theorem leads_of_makeDirectory (h : tree.makeDirectory path = .ok made) :
    ∃ before name directory, entrySteps path = before ++ [.name name] ∧
      tree.Leads maxLinks (tree.startOf path) (before ++ [.stay]) directory ∧
      tree.lookup (directory ++ [name]) = none ∧
      made.Leads maxLinks (made.startOf path) (entrySteps path ++ [.stay])
        (directory ++ [name]) := by
  have hadds := adds_of_create_eq_ok h
  obtain ⟨before, name, directory, hsteps, hleads, hlength, hfree, rfl⟩ := exists_of_create_eq_ok h
  refine ⟨before, name, directory, hsteps, hleads, hfree, ?_⟩
  have hput : (tree.put (directory ++ [name]) .directory).lookup (directory ++ [name]) =
      some .directory := by
    rw [lookup_put _ _ _ _ (List.append_ne_nil_of_right_ne_nil _ (List.cons_ne_nil _ _)),
      if_pos rfl]
  obtain ⟨left, hon⟩ := (hleads.mono hadds).append
  rw [hadds.startOf_eq, hsteps, List.append_assoc]
  exact hon _ _ (.directory hlength hput (.stay .arrived))

/-! ## Where a directory is -/

theorem Leads.stay_of_directory (h : tree.Leads links here steps there)
    (hthere : tree.lookup there = some .directory) :
    tree.Leads links here (steps ++ [.stay]) there := by
  induction h with
  | arrived => exact .stay .arrived
  | stay _ ih => exact .stay (ih hthere)
  | slash _ ih => exact .slash (ih hthere)
  | up _ ih => exact .up (ih hthere)
  | directory hlength hlookup _ ih => exact .directory hlength hlookup (ih hthere)
  | file _ hlookup =>
      rw [hlookup] at hthere
      cases hthere
  | link hlength hlookup _ ih =>
      have hrest := ih hthere
      rw [List.append_assoc] at hrest
      exact .link hlength hlookup hrest

/-- The slash at the end of a path asks for a directory, as a `.` does. -/
theorem Leads.stay_of_slash (h : tree.Leads links here (steps ++ [.slash]) there) :
    tree.Leads links here (steps ++ [.stay]) there := by
  obtain ⟨left, mid, hmid, hslash⟩ := exists_leads_of_append h (List.cons_ne_nil _ _)
  cases hslash with
  | slash harrived =>
      cases harrived
      exact hmid

theorem leads_of_isDirectory (h : tree.isDirectory path = true) :
    ∃ there, tree.Leads maxLinks (tree.startOf path) (entrySteps path ++ [.stay]) there := by
  obtain ⟨there, hspot, hthere⟩ := isDirectory_iff.mp h
  have hleads := (spotOf_eq_found_iff.mp hspot).2
  refine ⟨there, ?_⟩
  rcases stepsOf_eq_or path with hsteps | hsteps
  · exact (hsteps ▸ hleads).stay_of_directory hthere
  · exact (hsteps ▸ hleads).stay_of_slash

/-- Where a directory is, its parent leads for every name in it. -/
theorem exists_leads_of_join {base : Path} {text : String} {above : Path} (hname : Path.IsName text)
    (hparent : (base.join ⟨text⟩).parent? = some above) (hne : above.text ≠ "")
    (hbase : tree.Leads maxLinks (tree.startOf base) (entrySteps base ++ [.stay]) there) :
    ∃ mid, tree.Leads maxLinks (tree.startOf above) (entrySteps above ++ [.stay]) mid := by
  obtain ⟨between, last, after, hsteps, _, _, hafter⟩ := entrySteps_parent hparent hne
  rw [entrySteps_join base hname] at hsteps
  -- the name is the last step that is not a `.`, so nothing comes after it
  have hend : after = [] := by
    rcases List.eq_nil_or_concat after with hnil | ⟨front, step, hconcat⟩
    · exact hnil
    · have hstep : step = .stay := hafter step (by simp [hconcat])
      have hlast := congrArg List.getLast? hsteps
      rw [hconcat, hstep, List.concat_eq_append, ← List.cons_append, ← List.append_assoc,
        List.getLast?_concat, List.getLast?_concat] at hlast
      cases hlast
  subst hend
  have hfront : entrySteps base = entrySteps above ++ between :=
    (List.append_inj' hsteps rfl).1
  rw [hfront, List.append_assoc, ← startOf_join tree base hname, ← startOf_parent hparent hne]
    at hbase
  obtain ⟨_, mid, hmid, _⟩ := exists_leads_of_append hbase (by simp)
  exact ⟨mid, hmid⟩

/-! ## All directories above -/

theorem adds_makeDirectories (tree : FileTree) (paths : List Path) :
    tree.Adds (· = .directory) (tree.makeDirectories paths).2 := by
  induction paths generalizing tree with
  | nil => exact Adds.refl _ tree
  | cons path above ih =>
      unfold makeDirectories
      split
      · rename_i made hmade
        exact adds_of_create_eq_ok hmade
      · have habove := ih tree
        split
        · rename_i habove'
          rw [habove'] at habove
          exact habove
        · rename_i made habove'
          rw [habove'] at habove
          split
          · rename_i final hfinal
            exact habove.trans (adds_of_create_eq_ok hfinal)
          · exact habove
      · exact Adds.refl _ tree

theorem adds_createDirectories (tree : FileTree) (path : Path) :
    tree.Adds (· = .directory) (tree.createDirectories path).2 := by
  unfold createDirectories
  split
  · exact Adds.refl _ tree
  · exact adds_makeDirectories tree path.ancestors

/-- How a directory comes to be there: it was made, it was there already, or one of the two after
those above it had been made. -/
theorem exists_of_makeDirectories_eq_ok
    (h : tree.makeDirectories (path :: above) = (.ok (), made)) :
    tree.makeDirectory path = .ok made ∨
      made = tree ∧ tree.isDirectory path = true ∨
      ∃ between, tree.makeDirectory path = .error .notFound ∧
        tree.makeDirectories above = (.ok (), between) ∧
        (between.makeDirectory path = .ok made ∨
          made = between ∧ between.isDirectory path = true) := by
  -- after a failure the directory is looked for, in the tree as it is then
  have hthere {result : FileTree} {error : SystemError}
      (h : ((if result.isDirectory path then .ok () else .error error : Except SystemError Unit),
        result) = (.ok (), made)) : made = result ∧ result.isDirectory path = true := by
    split at h
    · rename_i hdirectory
      cases h
      exact ⟨rfl, hdirectory⟩
    · cases h
  unfold makeDirectories at h
  split at h
  · rename_i hmade
    cases h
    exact Or.inl hmade
  · rename_i hmissing
    refine Or.inr (Or.inr ?_)
    split at h
    · cases h
    · rename_i between habove
      refine ⟨between, hmissing, habove, ?_⟩
      split at h
      · rename_i hmade
        cases h
        exact Or.inl hmade
      · exact Or.inr (hthere h)
  · exact Or.inr (Or.inl (hthere h))

/-- If the directory could only be missing because of those above it, and it is there when they have
been made, all is done. -/
theorem makeDirectories_of_notFound (hmissing : tree.makeDirectory path = .error .notFound)
    (habove : tree.makeDirectories above = (.ok (), made)) (hthere : made.isDirectory path = true) :
    tree.makeDirectories (path :: above) = (.ok (), made) := by
  unfold makeDirectories
  rw [hmissing]
  simp only [habove]
  split
  · rename_i final hfinal
    have hne : path.text ≠ "" := by
      intro hempty
      obtain ⟨_, hcheck, _⟩ := bind_eq_ok_iff.mp hfinal
      simp [checkPath, hempty] at hcheck
    obtain ⟨there, hleads⟩ := leads_of_isDirectory hthere
    obtain ⟨error, herror, _⟩ := create_eq_error_of_leads hleads hne .directory
    rw [makeDirectory, herror] at hfinal
    cases hfinal
  · rw [if_pos hthere]

theorem leads_of_makeDirectories (h : tree.makeDirectories (path :: above) = (.ok (), made)) :
    ∃ there, made.Leads maxLinks (made.startOf path) (entrySteps path ++ [.stay]) there := by
  have hmake {before : FileTree} (hmade : before.makeDirectory path = .ok made) :
      ∃ there, made.Leads maxLinks (made.startOf path) (entrySteps path ++ [.stay]) there := by
    obtain ⟨_, _, _, _, _, _, hleads⟩ := leads_of_makeDirectory hmade
    exact ⟨_, hleads⟩
  rcases exists_of_makeDirectories_eq_ok h with
    hmade | ⟨rfl, hdirectory⟩ | ⟨between, _, _, hmade | ⟨rfl, hdirectory⟩⟩
  · exact hmake hmade
  · exact leads_of_isDirectory hdirectory
  · exact hmake hmade
  · exact leads_of_isDirectory hdirectory

theorem ancestors_of_parent? {path above : Path} (h : path.parent? = some above) :
    path.ancestors = if above.text = "" then [path] else path :: above.ancestors := by
  rw [Path.ancestors]
  split
  · rename_i hnone
    rw [h] at hnone
    cases hnone
  · rename_i habove
    rw [h] at habove
    cases habove
    rfl

theorem exists_ancestors_eq_cons (path : Path) : ∃ above, path.ancestors = path :: above := by
  unfold Path.ancestors
  split
  · exact ⟨[], rfl⟩
  · split
    · exact ⟨[], rfl⟩
    · exact ⟨_, rfl⟩

theorem entrySteps_of_empty (hempty : path.text = "") : entrySteps path = [] := by
  rw [entrySteps_eq, hempty]
  rfl

theorem leads_of_createDirectories (h : tree.createDirectories path = (.ok (), made)) :
    ∃ there, made.Leads maxLinks (made.startOf path) (entrySteps path ++ [.stay]) there := by
  unfold createDirectories at h
  split at h
  · rename_i hempty
    rw [entrySteps_of_empty hempty]
    exact ⟨_, .stay .arrived⟩
  · obtain ⟨above, habove⟩ := exists_ancestors_eq_cons path
    rw [habove] at h
    exact leads_of_makeDirectories h

/-- Where the path leads to a directory, making it is only a look at it. -/
theorem exists_createDirectories_eq
    (h : tree.Leads maxLinks (tree.startOf path) (entrySteps path ++ [.stay]) there)
    (hne : path.text ≠ "") :
    ∃ error : SystemError, tree.createDirectories path =
      (if tree.isDirectory path then .ok () else .error error, tree) := by
  obtain ⟨above, habove⟩ := exists_ancestors_eq_cons path
  obtain ⟨error, herror, hmissing⟩ := create_eq_error_of_leads h hne .directory
  refine ⟨error, ?_⟩
  rw [createDirectories, if_neg hne, habove, makeDirectories, makeDirectory, herror]
  cases error with
  | notFound => exact absurd rfl hmissing
  | _ => rfl

theorem createDirectories_of_leads
    (h : tree.Leads maxLinks (tree.startOf path) (entrySteps path ++ [.stay]) there) :
    (tree.createDirectories path).2 = tree := by
  by_cases hempty : path.text = ""
  · rw [createDirectories, if_pos hempty]
  · obtain ⟨error, heq⟩ := exists_createDirectories_eq h hempty
    rw [heq]

theorem createDirectories_of_isDirectory (h : tree.isDirectory path = true) :
    tree.createDirectories path = (.ok (), tree) := by
  obtain ⟨there, hleads⟩ := leads_of_isDirectory h
  by_cases hempty : path.text = ""
  · rw [createDirectories, if_pos hempty]
  · obtain ⟨error, heq⟩ := exists_createDirectories_eq hleads hempty
    rw [heq, if_pos h]

end FileTree

end WebComponents.Files
