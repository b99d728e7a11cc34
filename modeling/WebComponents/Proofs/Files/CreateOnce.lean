import Mathlib.Data.List.Induction
import WebComponents.Proofs.Files.Writing

/-!
# Files that are created once

A file that is to be created once must not replace what the user has.  The look and the write see
the path in two trees, because the directories above are made in between, and a path with `..` may
lead to an existing file only after that:

```text
missing/../existing.txt      nothing is found, missing is made, existing.txt is overwritten
```

`Uncovers` names exactly this, and it is the only way for the promise to fail
(`neverClobbers_iff`).  It needs a `..` after a name in the path (`not_uncovers_of_not_goesBack`):
without it a path that runs through a new directory stays below it, where no file can be.
-/

namespace WebComponents.Files

open FileTree

variable {tree between made : FileTree} {path above : Path} {free here there location : Location}
  {entry : Entry} {content : ByteArray} {links : Nat} {steps more : List Step}

/-! ## Trees in which every entry has its directory -/

/-- Every entry is inside a directory. -/
def FileTree.IsClosed (tree : FileTree) : Prop :=
  ∀ pair ∈ tree.entries, tree.lookup pair.1.dropLast = some .directory

instance : DecidablePred FileTree.IsClosed := fun tree =>
  inferInstanceAs (Decidable (∀ pair ∈ tree.entries, _))

theorem FileTree.IsClosed.lookup_above {name : String} (hclosed : tree.IsClosed)
    (h : tree.lookup (location ++ [name]) = some entry) :
    tree.lookup location = some .directory := by
  unfold lookup at h
  rw [if_neg (List.append_ne_nil_of_right_ne_nil _ (List.cons_ne_nil _ _))] at h
  have hlocation := hclosed _ (mem_of_lookupIn_eq_some h)
  rwa [List.dropLast_concat] at hlocation

/-- Below a free location there is nothing. -/
theorem FileTree.IsClosed.lookup_below (hclosed : tree.IsClosed) (hfree : tree.lookup free = none)
    (hbelow : free <+: location) : tree.lookup location = none := by
  obtain ⟨names, rfl⟩ := hbelow
  induction names using List.reverseRecOn with
  | nil => rwa [List.append_nil]
  | append_singleton names name ih =>
      rw [← List.append_assoc]
      cases h : tree.lookup (free ++ names ++ [name]) with
      | none => rfl
      | some entry =>
          have habove := hclosed.lookup_above h
          rw [ih] at habove
          cases habove

/-! ## Steps without names -/

theorem exists_leads_of_nameless (tree : FileTree) (links : Nat) (here : Location)
    (h : ∀ name, .name name ∉ steps) : ∃ there, tree.Leads links here steps there := by
  induction steps generalizing here with
  | nil => exact ⟨here, .arrived⟩
  | cons step steps ih =>
      have hrest : ∀ name, .name name ∉ steps :=
        fun name hname => h name (List.mem_cons_of_mem _ hname)
      cases step with
      | stay =>
          obtain ⟨there, hthere⟩ := ih here hrest
          exact ⟨there, .stay hthere⟩
      | slash =>
          obtain ⟨there, hthere⟩ := ih here hrest
          exact ⟨there, .slash hthere⟩
      | up =>
          obtain ⟨there, hthere⟩ := ih here.dropLast hrest
          exact ⟨there, .up hthere⟩
      | name name => exact absurd List.mem_cons_self (h name)

/-- A `.` or a slash leads nowhere else. -/
theorem FileTree.Leads.of_still_append (h : tree.Leads links here (steps ++ more) there)
    (hstill : ∀ step ∈ steps, step = .stay ∨ step = .slash) : tree.Leads links here more there := by
  induction steps with
  | nil => exact h
  | cons step steps ih =>
      obtain ⟨hstep, hsteps⟩ := List.forall_mem_cons.mp hstill
      rcases hstep with rfl | rfl
      · cases h with
        | stay h => exact ih h hsteps
      · cases h with
        | slash h => exact ih h hsteps

theorem FileTree.Leads.eq_of_still (h : tree.Leads links here steps there)
    (hstill : ∀ step ∈ steps, step = .stay ∨ step = .slash) : there = here := by
  rw [← List.append_nil steps] at h
  cases h.of_still_append hstill
  rfl

/-! ## Staying below a new directory -/

/-- The path has a `..` after a name. -/
def GoesBack (path : Path) : Prop :=
  ∃ before name after, entrySteps path = before ++ .name name :: after ∧ .up ∈ after

/-- One name more leads from below a new directory to below it. -/
theorem below_of_leads_name {name : String} (hclosed : tree.IsClosed)
    (hadds : tree.Adds (· = .directory) made) (hfree : tree.lookup free = none)
    (hbelow : free <+: here) (hstill : ∀ step ∈ more, step = .stay ∨ step = .slash)
    (h : made.Leads links here (.name name :: more) there) : free <+: there := by
  have hname : free <+: here ++ [name] := hbelow.trans (List.prefix_append _ _)
  cases h with
  | directory hlength hlookup h =>
      rw [h.eq_of_still hstill]
      exact hname
  | file hlength hlookup => exact hname
  | link hlength hlookup h =>
      -- only directories are new, so the link was there before, below a location that was free
      have hlink := hadds.lookup_of_not_new hlookup (by simp)
      rw [hclosed.lookup_below hfree hname] at hlink
      cases hlink

theorem not_goesBack_of_not_mem (h : .up ∉ entrySteps path) : ¬ GoesBack path := by
  rintro ⟨before, name, after, hsteps, hup⟩
  exact h (by simp [hsteps, hup])

theorem GoesBack.of_parent (hparent : path.parent? = some above) (hne : above.text ≠ "")
    (h : GoesBack above) : GoesBack path := by
  obtain ⟨before, name, after, habove, hup⟩ := h
  obtain ⟨between, last, void, hsteps, _⟩ := entrySteps_parent hparent hne
  refine ⟨before, name, after ++ between ++ last :: void, ?_, by simp [hup]⟩
  rw [hsteps, habove]
  simp

/-- The path of a directory leads to a location that was free in an earlier tree, or below one. -/
def LeadsBelow (tree made : FileTree) (path : Path) : Prop :=
  ∃ free there, tree.lookup free = none ∧ free <+: there ∧
    made.Leads maxLinks (made.startOf path) (entrySteps path ++ [.stay]) there

/-- If something had to be made for the parent of a path, and the parent leads below a new
directory, then so does the path, unless it goes back. -/
theorem LeadsBelow.of_parent (habove : LeadsBelow tree made above) (hclosed : tree.IsClosed)
    (hback : ¬ GoesBack path) (hparent : path.parent? = some above) (hne : above.text ≠ "")
    (hchanged : (tree.createDirectories above).2 ≠ tree)
    (hadds : tree.Adds (· = .directory) made)
    (hstill : ∀ step ∈ more, step = .stay ∨ step = .slash)
    (hpath : made.Leads maxLinks (made.startOf path) (entrySteps path ++ more) location) :
    ∃ free, tree.lookup free = none ∧ free <+: location := by
  obtain ⟨free, there, hfree, hbelow, hthere⟩ := habove
  obtain ⟨between, last, after, hsteps, hbetween, hlast, hafter⟩ := entrySteps_parent hparent hne
  rw [hsteps, ← startOf_parent hparent hne, List.append_assoc, List.append_assoc] at hpath
  obtain ⟨left, mid, hmid, hrest⟩ := exists_leads_of_append hpath (by simp)
  rw [hmid.unique hthere] at hrest
  have hlastOn : made.Leads left there (last :: (after ++ more)) location :=
    hrest.of_still_append fun step hstep => Or.inl (hbetween step hstep)
  have hend : ∀ step ∈ after ++ more, step = .stay ∨ step = .slash := by
    intro step hstep
    rcases List.mem_append.mp hstep with hstep | hstep
    · exact Or.inl (hafter step hstep)
    · exact hstill step hstep
  cases last with
  | stay => exact absurd rfl hlast
  | slash =>
      have hmem : Step.slash ∈ entrySteps path := by simp [hsteps]
      simp [entrySteps] at hmem
  | name name => exact ⟨free, hfree, below_of_leads_name hclosed hadds hfree hbelow hend hlastOn⟩
  | up =>
      -- then no name stands before it, and the parent was there all along
      have hnameless : ∀ name, .name name ∉ entrySteps above ++ [.stay] := by
        intro name hname
        have hname : Step.name name ∈ entrySteps above := by simpa using hname
        obtain ⟨before, rest, hsplit⟩ := List.append_of_mem hname
        refine hback ⟨before, name, rest ++ between ++ .up :: after, ?_, by simp⟩
        rw [hsteps, hsplit]
        simp
      obtain ⟨_, hleads⟩ := exists_leads_of_nameless tree maxLinks (tree.startOf above) hnameless
      exact absurd (createDirectories_of_leads hleads) hchanged

theorem leadsBelow_of_makeDirectory (hadds : tree.Adds (· = .directory) between)
    (h : between.makeDirectory path = .ok made) : LeadsBelow tree made path := by
  obtain ⟨_, name, directory, _, _, hfree, hleads⟩ := leads_of_makeDirectory h
  exact ⟨directory ++ [name], _, hadds.lookup_eq_none hfree, List.prefix_rfl, hleads⟩

/-- A directory that had to be made, or below one that had to be made. -/
theorem leadsBelow_of_makeDirectories {paths : List Path}
    (h : tree.makeDirectories (path :: paths) = (.ok (), made))
    (hthere : ∀ between, tree.makeDirectories paths = (.ok (), between) →
      between.isDirectory path = true → between = tree ∨ LeadsBelow tree between path) :
    made = tree ∨ LeadsBelow tree made path := by
  rcases exists_of_makeDirectories_eq_ok h with
    hmade | ⟨rfl, _⟩ | ⟨between, _, hpaths, hmade | ⟨rfl, hdirectory⟩⟩
  · exact Or.inr (leadsBelow_of_makeDirectory (Adds.refl _ tree) hmade)
  · exact Or.inl rfl
  · have hadds := adds_makeDirectories tree paths
    rw [hpaths] at hadds
    exact Or.inr (leadsBelow_of_makeDirectory hadds hmade)
  · exact hthere made hpaths hdirectory

/-- If anything had to be made for a path that does not go back, the path leads below it. -/
theorem leadsBelow_of_createDirectories (hclosed : tree.IsClosed) (hback : ¬ GoesBack path)
    (h : tree.createDirectories path = (.ok (), made)) :
    made = tree ∨ LeadsBelow tree made path := by
  by_cases hempty : path.text = ""
  · rw [createDirectories, if_pos hempty] at h
    cases h
    exact Or.inl rfl
  rw [createDirectories, if_neg hempty] at h
  clear hempty
  fun_induction Path.ancestors path generalizing made with
  | case1 path hparent =>
      refine leadsBelow_of_makeDirectories h fun between hbetween _ => Or.inl ?_
      cases hbetween
      rfl
  | case2 path above hparent hnone =>
      refine leadsBelow_of_makeDirectories h fun between hbetween _ => Or.inl ?_
      cases hbetween
      rfl
  | case3 path above hparent hne ih =>
      refine leadsBelow_of_makeDirectories h fun between hbetween hdirectory => ?_
      have habove : tree.createDirectories above = (.ok (), between) := by
        rw [createDirectories, if_neg hne, hbetween]
      -- what had to be made above is on the way to the path, as the path does not go back
      rcases ih (fun hgoes => hback (hgoes.of_parent hparent hne)) hbetween with hsame | hbelow
      · exact Or.inl hsame
      by_cases hsame : between = tree
      · exact Or.inl hsame
      have hadds := adds_createDirectories tree above
      have hchanged : (tree.createDirectories above).2 ≠ tree := by rwa [habove]
      rw [habove] at hadds
      obtain ⟨there, hthere⟩ := leads_of_isDirectory hdirectory
      obtain ⟨free, hfree, hprefix⟩ := hbelow.of_parent hclosed hback hparent hne hchanged hadds
        (by simp) hthere
      exact Or.inr ⟨free, there, hfree, hprefix, hthere⟩

/-! ## The promise -/

/-- The path stands for nothing, but once the directories above it are made it leads to a file that
was there before. -/
def Uncovers (tree : FileTree) (path : Path) : Prop :=
  tree.holds path = false ∧
    ∃ made location content, createParents tree path = (.ok (), made) ∧
      made.spotOf false path = .ok (.found location) ∧
      tree.lookup location = some (.file content)

/-- What a file that is created once promises: every file keeps its content, and where the path
leads to a file that was there, once the directories above it are made, nothing is done. -/
structure NeverClobbers (tree : FileTree) (file : GeneratedFile) : Prop where
  kept : ∀ location content, tree.lookup location = some (.file content) →
    (file.write tree).2.lookup location = some (.file content)
  skipped : ∀ made location content, createParents tree file.path = (.ok (), made) →
    made.spotOf false file.path = .ok (.found location) →
    tree.lookup location = some (.file content) →
    file.write tree = (.ok .skipped, tree)

theorem not_uncovers_of_not_goesBack (hclosed : tree.IsClosed) (hback : ¬ GoesBack path) :
    ¬ Uncovers tree path := by
  rintro ⟨hlook, made, location, content, hmade, hspot, hfile⟩
  -- had nothing been made, the look would have found the file
  have hchanged : made ≠ tree := by
    rintro rfl
    rw [holds_iff.mpr ⟨location, _, hspot, hfile⟩] at hlook
    cases hlook
  cases hparent : path.parent? with
  | none =>
      rw [createParents, hparent] at hmade
      cases hmade
      exact hchanged rfl
  | some above =>
      have habove := createDirectories_of_createParents hparent hmade
      by_cases hne : above.text = ""
      · rw [createDirectories, if_pos hne] at habove
        cases habove
        exact hchanged rfl
      have hbelow := (leadsBelow_of_createDirectories hclosed
        (fun hgoes => hback (hgoes.of_parent hparent hne)) habove).resolve_left hchanged
      have hadds := adds_createDirectories tree above
      rw [habove] at hadds
      obtain ⟨more, hsteps, hstill⟩ : ∃ more, stepsOf path.text.toList = entrySteps path ++ more ∧
          ∀ step ∈ more, step = .stay ∨ step = .slash := by
        rcases stepsOf_eq_or path with hsteps | hsteps
        · exact ⟨[], by rw [hsteps, List.append_nil], by simp⟩
        · exact ⟨[.slash], hsteps, by simp⟩
      have hleads := (spotOf_eq_found_iff.mp hspot).2
      rw [hsteps] at hleads
      obtain ⟨free, hfree, hprefix⟩ := hbelow.of_parent hclosed hback hparent hne
        (by rwa [habove]) hadds hstill hleads
      -- the path leads below a location that was free, where no file was
      rw [hclosed.lookup_below hfree hprefix] at hfile
      cases hfile

theorem neverClobbers_of_not_uncovers (h : ¬ Uncovers tree path) (text : String) :
    NeverClobbers tree ⟨path, text, .ifMissing⟩ where
  kept := by
    intro location content hfile
    by_cases hlook : tree.holds path = true
    · rw [write_of_holds rfl hlook]
      exact hfile
    have hkept := (adds_createParents tree path).lookup_of_some hfile
    rcases write_eq ⟨path, text, .ifMissing⟩ (fun hrule => hlook hrule.2) with
      ⟨_, _, heq⟩ | ⟨hmade, ⟨later, hlater, heq⟩ | ⟨_, heq⟩⟩
    · rw [heq]
      exact hkept
    · rw [heq]
      refine lookup_of_writeText_eq_ok hlater hkept fun hspot => h ⟨?_, ?_⟩
      · simpa using hlook
      · exact ⟨_, location, content, Prod.ext hmade rfl, hspot, hfile⟩
    · rw [heq]
      exact hkept
  skipped := by
    intro made location content hmade hspot hfile
    by_cases hlook : tree.holds path = true
    · exact write_of_holds rfl hlook
    · exact absurd ⟨by simpa using hlook, made, location, content, hmade, hspot, hfile⟩ h

theorem NeverClobbers.not_uncovers {text : String}
    (hpromise : NeverClobbers tree ⟨path, text, .ifMissing⟩) : ¬ Uncovers tree path := by
  rintro ⟨hlook, made, location, content, hmade, hspot, hfile⟩
  have hskipped := hpromise.skipped made location content hmade hspot hfile
  have hpassed : ¬ (Overwrite.ifMissing = .ifMissing ∧ tree.holds path = true) := by simp [hlook]
  rcases write_eq ⟨path, text, .ifMissing⟩ hpassed with
    ⟨_, _, heq⟩ | ⟨_, ⟨_, _, heq⟩ | ⟨_, heq⟩⟩ <;> rw [heq] at hskipped <;> cases hskipped

/-- **Files that are created once.**  The promise is kept unless the path uncovers a file, and in a
tree where every entry has its directory no path does that without a `..` after a name. -/
theorem neverClobbers_iff (tree : FileTree) (path : Path) (text : String) :
    (NeverClobbers tree ⟨path, text, .ifMissing⟩ ↔ ¬ Uncovers tree path) ∧
      (tree.IsClosed → ¬ GoesBack path → NeverClobbers tree ⟨path, text, .ifMissing⟩) := by
  constructor
  · exact ⟨NeverClobbers.not_uncovers, fun h => neverClobbers_of_not_uncovers h text⟩
  · intro hclosed hback
    exact neverClobbers_of_not_uncovers (not_uncovers_of_not_goesBack hclosed hback) text

/-- A test is created in a directory that is still missing, beside a file of the user. -/
theorem neverClobbers_iff_test :
    let tree : FileTree :=
      ⟨[(["src"], .directory), (["src", "card.tsx"], .file "user".toUTF8)], []⟩
    let path : Path := ⟨"./src/test/card.spec.tsx"⟩
    tree.IsClosed ∧ ¬ GoesBack path ∧ NeverClobbers tree ⟨path, "new", .ifMissing⟩ := by
  intro tree path
  have hclosed : tree.IsClosed := by decide
  have hback : ¬ GoesBack path := not_goesBack_of_not_mem (by decide)
  exact ⟨hclosed, hback, (neverClobbers_iff tree path "new").2 hclosed hback⟩

private theorem createParents_existing :
    let tree : FileTree := ⟨[(["existing.txt"], .file "user".toUTF8)], []⟩
    let made := tree.put ["missing"] .directory
    createParents tree ⟨"missing/../existing.txt"⟩ = (.ok (), made) := by
  intro tree made
  have hparent : (Path.mk "missing/../existing.txt").parent? = some ⟨"missing/.."⟩ := by decide
  have hancestors : (Path.mk "missing/..").ancestors = [⟨"missing/.."⟩, ⟨"missing"⟩] := by
    have habove : (Path.mk "missing/..").parent? = some ⟨"missing"⟩ := by decide
    have hnone : (Path.mk "missing").parent? = some ⟨""⟩ := by decide
    rw [ancestors_of_parent? habove, if_neg (by decide), ancestors_of_parent? hnone, if_pos rfl]
  have hcheck : checkPath ⟨"missing/.."⟩ = .ok () := by
    simp [checkPath, maxPathLength]
    decide
  have hcheckName : checkPath ⟨"missing"⟩ = .ok () := by
    simp [checkPath, maxPathLength]
    decide
  have hsteps : entrySteps ⟨"missing/.."⟩ = [.name "missing", .up] := by decide
  have hname : entrySteps ⟨"missing"⟩ = [.name "missing"] := by decide
  have hfirst : tree.makeDirectory ⟨"missing/.."⟩ = .error .notFound := by
    rw [makeDirectory, create, hcheck, hsteps]
    simp only [Bind.bind, Except.bind, List.getLast?]
    rw [walk]
    rfl
  have habove : tree.makeDirectory ⟨"missing"⟩ = .ok made := by
    rw [makeDirectory, create, hcheckName, hname]
    simp only [Bind.bind, Except.bind, List.getLast?]
    rw [List.dropLast, List.nil_append, walk, walk]
    rfl
  have hthere : made.isDirectory ⟨"missing/.."⟩ = true := by
    refine isDirectory_iff.mpr ⟨[], spotOf_eq_found_iff.mpr ⟨hcheck, ?_⟩, rfl⟩
    exact .directory (by decide) rfl (.up .arrived)
  have hall : tree.createDirectories ⟨"missing/.."⟩ = (.ok (), made) := by
    rw [createDirectories, if_neg (by decide), hancestors]
    refine makeDirectories_of_notFound hfirst ?_ hthere
    rw [makeDirectories, habove]
  rw [createParents, hparent]
  simp only [hall]
  rfl

/-- The user's file is overwritten. -/
theorem not_neverClobbers_existing :
    ¬ NeverClobbers ⟨[(["existing.txt"], .file "user".toUTF8)], []⟩
      ⟨⟨"missing/../existing.txt"⟩, "new", .ifMissing⟩ := by
  intro hpromise
  have hsteps : stepsOf "missing/../existing.txt".toList =
      [.name "missing", .up, .name "existing.txt"] := by decide
  have hcheck : checkPath ⟨"missing/../existing.txt"⟩ = .ok () := by
    simp [checkPath, maxPathLength]
    decide
  refine hpromise.not_uncovers
    ⟨?_, _, ["existing.txt"], "user".toUTF8, createParents_existing, ?_, rfl⟩
  · simp only [holds, entryOf, spotOf, hcheck, hsteps]
    rw [walk]
    rfl
  · rw [spotOf_eq_found_iff]
    exact ⟨hcheck, hsteps ▸ .directory (by decide) rfl (.up (.file (by decide) rfl))⟩

end WebComponents.Files
