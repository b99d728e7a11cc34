import WebComponents.Commands.Generate
import WebComponents.Proofs.Files.Schedule
import WebComponents.Proofs.Files.Writing
import WebComponents.Proofs.Scaffold.Places

/-!
# Generating a component keeps all files

`GeneratesTo` is what a call of `generate` may come to if the files of the plan are written in any
order, a step of one between the steps of others.  In each of these ways

```text
made       the tree with the planned directories: it adds directories to the tree of the user
...        between any two steps: it adds files to `made`, each at a location that was free there
```

The second line is an invariant of the batch (`keeps_job`).  No directory is made any more, since
the parent of a planned file is there.  And no file of `made` is written: its path would lead to it
in `made` already (`leads_of_adds_files`), where all planned paths were looked at and stood for
nothing.
-/

namespace WebComponents.Commands

open Files Files.FileTree Report Scaffold

variable {tree made : FileTree} {plan : Plan} {root : Path} {shown : String}

/-! ## The directories of the plan -/

theorem adds_makeAll (tree : FileTree) (directories : List Path) :
    tree.Adds (· = .directory) (makeAll tree directories).2 := by
  induction directories generalizing tree with
  | nil => exact Adds.refl _ tree
  | cons directory directories ih =>
      have hfirst := adds_createDirectories tree directory
      unfold makeAll
      split
      · rename_i between hbetween
        rw [hbetween] at hfirst
        exact hfirst.trans (ih between)
      · rename_i hbetween
        rw [hbetween] at hfirst
        exact hfirst

theorem leads_of_makeAll {directories : List Path} (h : makeAll tree directories = (.ok (), made)) :
    ∀ directory ∈ directories, ∃ there,
      made.Leads maxLinks (made.startOf directory) (entrySteps directory ++ [.stay]) there := by
  induction directories generalizing tree with
  | nil => simp
  | cons directory directories ih =>
      unfold makeAll at h
      split at h
      · rename_i between hbetween
        refine List.forall_mem_cons.mpr ⟨?_, ih h⟩
        have hadds := adds_makeAll between directories
        rw [h] at hadds
        obtain ⟨there, hthere⟩ := leads_of_createDirectories hbetween
        exact ⟨there, hadds.startOf_eq directory ▸ hthere.mono hadds⟩
      · cases h

/-! ## The batch -/

variable {path : Path} {there : Location}

theorem keeps_writeContent (hfree : made.holds path = false) (text : String) :
    (Job.writeContent path text).Keeps (made.Adds Entry.IsFile) := by
  intro tree hadds
  refine ⟨?_, fun _ _ => trivial⟩
  intro later hlater
  obtain ⟨location, rfl, hlocation⟩ := exists_of_writeText_eq_ok hlater
  refine ⟨?_, trivial⟩
  have hnew : made.lookup location = none := by
    rcases hlocation with hnone | ⟨hspot, _⟩
    · exact hadds.lookup_eq_none hnone
    · by_contra hthere
      obtain ⟨entry, hentry⟩ := Option.ne_none_iff_exists'.mp hthere
      obtain ⟨hcheck, hleads⟩ := spotOf_eq_found_iff.mp hspot
      rw [hadds.startOf_eq] at hleads
      have hmade := leads_of_adds_files hadds hleads hthere
      have hheld := holds_iff.mpr ⟨location, entry, spotOf_eq_found_iff.mpr ⟨hcheck, hmade⟩, hentry⟩
      rw [hfree] at hheld
      cases hheld
  exact hadds.put hnew trivial

/-- No directory is made where one is. -/
theorem keeps_makeDirectories {next : Except SystemError Unit → Job} {paths : List Path}
    (hthere : made.Leads maxLinks (made.startOf path) (entrySteps path ++ [.stay]) there)
    (hne : path.text ≠ "") (hnext : ∀ result, (next result).Keeps (made.Adds Entry.IsFile)) :
    (Job.makeDirectories (path :: paths) next).Keeps (made.Adds Entry.IsFile) := by
  intro tree hadds
  rw [← hadds.startOf_eq] at hthere
  obtain ⟨error, herror, hmissing⟩ := create_eq_error_of_leads (hthere.mono hadds) hne .directory
  constructor
  · intro later hlater
    cases herror.symm.trans hlater
  · intro cause hcause
    cases herror.symm.trans hcause
    cases error with
    | notFound => exact absurd rfl hmissing
    | _ => exact fun later hlater => hnext _

theorem keeps_job {directory : Path} {name : String}
    (hthere : made.Leads maxLinks (made.startOf directory) (entrySteps directory ++ [.stay]) there)
    (hname : Path.IsName name) (hfree : made.holds (directory.join ⟨name⟩) = false)
    (text : String) :
    (GeneratedFile.mk (directory.join ⟨name⟩) text .ifMissing).job.Keeps
      (made.Adds Entry.IsFile) := by
  have hcontent := keeps_writeContent hfree text
  have hthrough :
      (Job.writeThrough (directory.join ⟨name⟩) text).Keeps (made.Adds Entry.IsFile) := by
    unfold Job.writeThrough
    split
    · exact hcontent
    · rename_i above hparent
      split
      · exact hcontent
      · rename_i hne
        obtain ⟨mid, hmid⟩ := exists_leads_of_join hname hparent hne hthere
        obtain ⟨paths, hpaths⟩ := exists_ancestors_eq_cons above
        rw [hpaths]
        refine keeps_makeDirectories hmid hne fun result => ?_
        cases result with
        | ok _ => exact hcontent
        | error cause => trivial
  intro tree _
  show (if _ then _ else _ : Job).Keeps _
  split
  · trivial
  · exact hthrough

/-! ## The call -/

/-- What a call of `generate` may return and leave behind, in whichever order the files of the plan
are written. -/
def GeneratesTo (plan : Plan) (shown : String) (root : Path) (tree : FileTree)
    (result : Except Problem GenerateReport) (final : FileTree) : Prop :=
  match createPlanned plan tree with
  | (.error problem, made) => result = .error problem ∧ final = made
  | (.ok (), made) =>
    if (existingFiles plan made).isEmpty then
      ∃ outcomes, RunsTo made (plannedFiles plan) outcomes final ∧
        result = .ok ⟨shown, resultOf root outcomes⟩
    else
      result = .ok ⟨shown, .existing ((existingFiles plan made).map root.relative)⟩ ∧ final = made

theorem generatesTo_generate (plan : Plan) (shown : String) (root : Path) (tree : FileTree) :
    GeneratesTo plan shown root tree (generate plan shown root tree).1
      (generate plan shown root tree).2 := by
  unfold GeneratesTo generate
  rcases createPlanned plan tree with ⟨problem | _, made⟩
  · exact ⟨rfl, rfl⟩
  · simp only
    split
    · exact ⟨_, runsTo_writeAll made (plannedFiles plan), rfl⟩
    · exact ⟨rfl, rfl⟩

theorem holds_of_existingFiles {kind : FileKind} (hnone : (existingFiles plan made).isEmpty = true)
    (hkind : kind ∈ plan.kinds) : made.holds (plan.path kind) = false := by
  have hfree := List.filter_eq_nil_iff.mp (List.isEmpty_iff.mp hnone)
  have hpath : plan.path kind ∈ plan.files.map (·.2) :=
    List.mem_map.mpr ⟨_, List.mem_map.mpr ⟨kind, hkind, rfl⟩, rfl⟩
  simpa using hfree _ hpath

theorem resultOf_ne_existing (root : Path) (outcomes : List WriteOutcome) (paths : List Path) :
    resultOf root outcomes ≠ .existing paths := by
  unfold resultOf
  simp only
  split <;> exact nofun

/-- What a call adds: directories first, and then files, unless the plan's files are there or the
directories cannot be made. -/
theorem GeneratesTo.adds {sourceDir : Path} {input : String} {requested : List FileKind}
    {result : Except Problem GenerateReport} {final : FileTree}
    (h : GeneratesTo (Plan.ofInput sourceDir input requested) shown root tree result final) :
    ∃ made, tree.Adds (· = .directory) made ∧
      (final = made ∨ made.Adds Entry.IsFile final ∧
        ∃ outcomes, result = .ok ⟨shown, resultOf root outcomes⟩) := by
  generalize hplan : Plan.ofInput sourceDir input requested = plan at h
  have hadds := adds_makeAll tree plan.directories
  unfold GeneratesTo createPlanned at h
  split at h
  · rename_i made hmade
    rw [hmade] at hadds
    exact ⟨made, hadds, Or.inl h.2⟩
  · rename_i made hmade
    rw [hmade] at hadds
    refine ⟨made, hadds, ?_⟩
    split at h
    · rename_i hnone
      obtain ⟨outcomes, hruns, hresult⟩ := h
      refine Or.inr ⟨hruns.keeps (Adds.refl _ made) fun file hfile => ?_, outcomes, hresult⟩
      obtain ⟨kind, hkind, rfl⟩ := List.mem_map.mp hfile
      have hfree := holds_of_existingFiles hnone hkind
      have hname : Path.IsName (plan.fileName kind) := by
        subst hplan
        exact isName_append_extension (slash_notMem_componentTag input) kind
      -- the parent of a planned file has been made, so its job makes none
      obtain ⟨there, hthere⟩ := leads_of_makeAll hmade _ (Plan.directoryOf_mem hkind)
      unfold plannedFile
      rw [Plan.path_eq] at hfree ⊢
      exact keeps_job hthere hname hfree _
    · exact Or.inl h.2

/-- **Generating keeps all files.**  Whatever a call comes to, and in whichever order its files are
written, all that was there is there as it was; and if some of the files were there already, no file
is created. -/
theorem generate_keeps_files (sourceDir : Path) (input : String) (requested : List FileKind)
    (shown : String) (root : Path) (tree : FileTree) :
    let plan := Plan.ofInput sourceDir input requested
    GeneratesTo plan shown root tree (generate plan shown root tree).1
        (generate plan shown root tree).2 ∧
      ∀ result final, GeneratesTo plan shown root tree result final →
        (∀ location entry, tree.lookup location = some entry →
          final.lookup location = some entry) ∧
        ∀ paths, result = .ok ⟨shown, .existing paths⟩ → ∀ location content,
          final.lookup location = some (.file content) →
            tree.lookup location = some (.file content) := by
  intro plan
  refine ⟨generatesTo_generate plan shown root tree, ?_⟩
  intro result final h
  obtain ⟨made, hmade, rfl | ⟨hfiles, outcomes, rfl⟩⟩ := h.adds
  · exact ⟨fun _ _ => hmade.lookup_of_some,
      fun _ _ _ _ hfile => hmade.lookup_of_not_new hfile (by simp)⟩
  · constructor
    · intro location entry hentry
      exact hfiles.lookup_of_some (hmade.lookup_of_some hentry)
    · intro paths hexisting
      simp only [Except.ok.injEq, GenerateReport.mk.injEq, true_and] at hexisting
      exact absurd hexisting (resultOf_ne_existing root outcomes paths)

/-- The component is there already. -/
theorem generate_keeps_files_existing :
    let card := ["src", "components", "my-card"]
    let tree : FileTree :=
      ⟨[(["src"], .directory), (["src", "components"], .directory), (card, .directory),
        (card ++ ["my-card.tsx"], .file "user".toUTF8)], []⟩
    let run := generate (Plan.ofInput ⟨"src"⟩ "my-card" []) "my-card" ⟨"src"⟩ tree
    run.1 = .ok ⟨"my-card", .existing [⟨"components/my-card/my-card.tsx"⟩]⟩ ∧
      run.2.lookup (card ++ ["my-card.tsx"]) = some (.file "user".toUTF8) ∧
      ∀ location content, run.2.lookup location = some (.file content) →
        tree.lookup location = some (.file content) := by
  intro card tree run
  have hdirectory : tree.isDirectory ⟨"src/components/my-card"⟩ = true := by
    have hcheck : checkPath ⟨"src/components/my-card"⟩ = .ok () := by
      simp [checkPath, maxPathLength]
      decide
    have hsteps : stepsOf "src/components/my-card".toList =
        [.name "src", .name "components", .name "my-card"] := by decide
    refine isDirectory_iff.mpr ⟨card, spotOf_eq_found_iff.mpr ⟨hcheck, hsteps ▸ ?_⟩, rfl⟩
    exact .directory (by decide) rfl (.directory (by decide) rfl
      (.directory (by decide) rfl .arrived))
  have hfile : tree.holds ⟨"src/components/my-card/my-card.tsx"⟩ = true := by
    have hcheck : checkPath ⟨"src/components/my-card/my-card.tsx"⟩ = .ok () := by
      simp [checkPath, maxPathLength]
      decide
    have hsteps : stepsOf "src/components/my-card/my-card.tsx".toList =
        [.name "src", .name "components", .name "my-card", .name "my-card.tsx"] := by decide
    have hspot : tree.spotOf false ⟨"src/components/my-card/my-card.tsx"⟩ =
        .ok (.found (card ++ ["my-card.tsx"])) := by
      refine spotOf_eq_found_iff.mpr ⟨hcheck, hsteps ▸ ?_⟩
      exact .directory (by decide) rfl (.directory (by decide) rfl
        (.directory (by decide) rfl (.file (by decide) rfl)))
    exact holds_iff.mpr ⟨_, _, hspot, rfl⟩
  have hplan : (Plan.ofInput ⟨"src"⟩ "my-card" []).directories = [⟨"src/components/my-card"⟩] ∧
      (Plan.ofInput ⟨"src"⟩ "my-card" []).files.map (·.2) =
        [⟨"src/components/my-card/my-card.tsx"⟩] := by decide
  have hresult : run.1 = .ok ⟨"my-card", .existing [⟨"components/my-card/my-card.tsx"⟩]⟩ := by
    simp only [run, generate, createPlanned, hplan.1, makeAll,
      createDirectories_of_isDirectory hdirectory, existingFiles, hplan.2, List.filter, hfile]
    decide +kernel
  obtain ⟨hruns, hkeeps⟩ := generate_keeps_files ⟨"src"⟩ "my-card" [] "my-card" ⟨"src"⟩ tree
  obtain ⟨hentries, hexisting⟩ := hkeeps _ _ hruns
  exact ⟨hresult, hentries _ _ rfl, hexisting _ hresult⟩

end WebComponents.Commands
