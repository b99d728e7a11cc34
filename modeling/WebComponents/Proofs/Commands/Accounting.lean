import WebComponents.Proofs.Commands.SelfContained

/-!
# The report on redirected imports accounts for every file

Each path that a call is given counts once in the report, in the order of the call and as often as
it is given:

```text
no text is read                      failures     the path as it was given
a text that redirecting changes      changed      the absolute path
a text that it does not change       unchanged    only counted
```

All texts are read before the first is written, so a file that is given twice, or under two
spellings, counts by its old text each time (`Declaration`).  Without links its new text is the same
each time, and without typings no other file is touched (`redirectImports_accounts`).
-/

namespace WebComponents.Commands

open Files Files.FileTree Report Typings

variable {typesDir path : Path} {files : List Path} {tree written : FileTree}
  {declaration : Declaration}

/-! ## What is read -/

/-- A declaration file that can be read, with its absolute path. -/
structure Declaration where
  path : Path
  content : String
  deriving DecidableEq

/-- What is read of a path, if it can be made absolute and leads to a text. -/
def declaration? (tree : FileTree) (path : Path) : Option Declaration := do
  let place ← path.absolute? tree.workPath
  let content ← (tree.readText place).toOption
  return ⟨place, content⟩

/-- The declaration with its imports redirected, to be written over it. -/
def Declaration.redirected (typesDir : Path) (declaration : Declaration) : GeneratedFile :=
  ⟨declaration.path, redirect typesDir declaration.path declaration.content, .always⟩

/-- Redirecting the imports of the declaration gives another text. -/
def Declaration.Changes (typesDir : Path) (declaration : Declaration) : Prop :=
  redirect typesDir declaration.path declaration.content ≠ declaration.content

instance (typesDir : Path) : DecidablePred (Declaration.Changes typesDir) :=
  fun _ => inferInstanceAs (Decidable (_ ≠ _))

/-- The declarations among the files, in their order. -/
def declarations (tree : FileTree) (files : List Path) : List Declaration :=
  files.filterMap (declaration? tree)

theorem declaration?_eq_some_iff :
    declaration? tree path = some declaration ↔
      path.absolute? tree.workPath = some declaration.path ∧
        ∃ location bytes, tree.spotOf false declaration.path = .ok (.found location) ∧
          tree.lookup location = some (.file bytes) ∧
          String.fromUTF8? bytes = some declaration.content := by
  rw [← readText_eq_ok_iff]
  unfold declaration?
  cases hplace : path.absolute? tree.workPath with
  | none => simp
  | some place =>
      cases hread : tree.readText place with
      | error cause =>
          refine iff_of_false (by simp [hread, Except.toOption]) ?_
          rintro ⟨hsome, hother⟩
          cases hsome
          cases hread.symm.trans hother
      | ok content =>
          simp only [Option.bind_eq_bind, Option.bind_some, hread, Except.toOption, Option.pure_def,
            Option.some.injEq]
          constructor
          · rintro rfl
            exact ⟨rfl, hread⟩
          · rintro ⟨rfl, hother⟩
            cases hread.symm.trans hother
            rfl

/-- The three ways to read a path. -/
theorem readAndRedirect_cases (typesDir : Path) (tree : FileTree) (path : Path) :
    (declaration? tree path = none ∧
      ∃ problem, readAndRedirect typesDir tree path = .error problem) ∨
    (∃ declaration, declaration? tree path = some declaration ∧ declaration.Changes typesDir ∧
      readAndRedirect typesDir tree path = .ok (.changed (declaration.redirected typesDir))) ∨
    ∃ declaration, declaration? tree path = some declaration ∧ ¬ declaration.Changes typesDir ∧
      readAndRedirect typesDir tree path = .ok .unchanged := by
  unfold readAndRedirect declaration?
  cases path.absolute? tree.workPath with
  | none => exact Or.inl ⟨rfl, _, rfl⟩
  | some place =>
      simp only [Option.bind_eq_bind, Option.bind_some, Option.pure_def]
      cases tree.readText place with
      | error cause => exact Or.inl ⟨rfl, _, rfl⟩
      | ok content =>
          by_cases hsame : redirect typesDir place content = content
          · refine Or.inr (Or.inr ⟨⟨place, content⟩, rfl, not_not.mpr hsame, ?_⟩)
            simp [hsame, Except.mapError]
          · refine Or.inr (Or.inl ⟨⟨place, content⟩, rfl, hsame, ?_⟩)
            simp only [Except.mapError, ok_bind, if_neg hsame]
            rfl

/-! ## What is reported -/

/-- The files to be written are those that change. -/
theorem pending_eq_map (typesDir : Path) (tree : FileTree) (files : List Path) :
    pending typesDir tree files =
      ((declarations tree files).filter (·.Changes typesDir)).map (·.redirected typesDir) := by
  induction files with
  | nil => rfl
  | cons path files ih =>
      unfold pending pendingFiles readings declarations at ih ⊢
      rcases readAndRedirect_cases typesDir tree path with
        ⟨hread, problem, hresult⟩ | ⟨declaration, hread, hchanges, hresult⟩ |
        ⟨declaration, hread, hsame, hresult⟩
      · simpa [hread, hresult] using ih
      · simpa [hread, hresult, hchanges] using ih
      · simpa [hread, hresult, hsame] using ih

theorem unchangedCount_readings (typesDir : Path) (tree : FileTree) (files : List Path) :
    unchangedCount (readings typesDir tree files) =
      (declarations tree files).countP (¬ ·.Changes typesDir) := by
  induction files with
  | nil => rfl
  | cons path files ih =>
      unfold unchangedCount readings declarations at ih ⊢
      rcases readAndRedirect_cases typesDir tree path with
        ⟨hread, problem, hresult⟩ | ⟨declaration, hread, hchanges, hresult⟩ |
        ⟨declaration, hread, hsame, hresult⟩
      · simpa [hread, hresult] using ih
      · simpa [hread, hresult, hchanges] using ih
      · simpa [hread, hresult, hsame] using ih

theorem map_path_unreadable (typesDir : Path) (tree : FileTree) (files : List Path) :
    (unreadable (readings typesDir tree files)).map (·.path) =
      files.filter fun path => (declaration? tree path).isNone := by
  induction files with
  | nil => rfl
  | cons path files ih =>
      unfold unreadable readings at ih ⊢
      rcases readAndRedirect_cases typesDir tree path with
        ⟨hread, problem, hresult⟩ | ⟨declaration, hread, _, hresult⟩ |
        ⟨declaration, hread, _, hresult⟩
      · simpa [hread, hresult] using ih
      · simpa [hread, hresult] using ih
      · simpa [hread, hresult] using ih

/-- No path is lost, and none counts twice. -/
theorem length_unreadable_add (tree : FileTree) (files : List Path) :
    (files.filter fun path => (declaration? tree path).isNone).length +
      (declarations tree files).length = files.length := by
  induction files with
  | nil => rfl
  | cons path files ih =>
      unfold declarations at ih ⊢
      cases hread : declaration? tree path with
      | none => simp [hread]; omega
      | some declaration => simp [hread]; omega

/-! ## The call -/

/-- What a call without typings reports and leaves behind, file by file. -/
structure Accounts (typesDir : Path) (files : List Path) (tree : FileTree)
    (report : RedirectReport) (final : FileTree) : Prop where
  failures : report.failures.map (·.path) =
    files.filter fun path => (declaration? tree path).isNone
  changed : report.changed =
    ((declarations tree files).filter (·.Changes typesDir)).map (·.path)
  unchanged : report.unchanged = (declarations tree files).countP (¬ ·.Changes typesDir)
  total : report.failures.length + report.changed.length + report.unchanged = files.length
  typings : report.typings? = none
  redirected : ∀ path ∈ report.changed, ∃ content, tree.readText path = .ok content ∧
    final.readText path = .ok (redirect typesDir path content)
  /-- What no path of a changed file leads to is as it was. -/
  kept : ∀ location,
    (∀ path ∈ report.changed, tree.spotOf false path ≠ .ok (.found location)) →
      final.lookup location = tree.lookup location

theorem Redirected.accounts (h : Redirected typesDir files tree written)
    (hlinks : tree.HasNoLinks) :
    Accounts typesDir files tree (reportOf typesDir files tree none) written := by
  have hfailures : (reportOf typesDir files tree none).failures.map (·.path) =
      files.filter fun path => (declaration? tree path).isNone := by
    simpa [reportOf, failedFiles] using map_path_unreadable typesDir tree files
  have hchanged : (reportOf typesDir files tree none).changed =
      ((declarations tree files).filter (·.Changes typesDir)).map (·.path) := by
    rw [reportOf, pending_eq_map, List.map_map]
    rfl
  have hunchanged : (reportOf typesDir files tree none).unchanged =
      (declarations tree files).countP (¬ ·.Changes typesDir) :=
    unchangedCount_readings typesDir tree files
  refine ⟨hfailures, hchanged, hunchanged, ?_, rfl, ?_, ?_⟩
  · have hread := length_unreadable_add tree files
    have hsplit := List.length_eq_length_filter_add (l := declarations tree files)
      fun declaration => decide (declaration.Changes typesDir)
    rw [← List.length_map (·.path), hfailures, hchanged, hunchanged, List.length_map,
      List.countP_eq_length_filter]
    simp only [decide_not]
    omega
  · intro path hpath
    obtain ⟨file, hfile, rfl⟩ := List.mem_map.mp hpath
    obtain ⟨_, _, content, hread, hcontent, _⟩ := exists_of_mem_pending hfile
    exact ⟨content, hread, hcontent ▸ h.readText_eq hlinks hfile⟩
  · intro location hother
    rcases h.renews.lookup_eq location with hkept | ⟨file, hfile, hspot, _⟩
    · exact hkept
    · exact absurd hspot (hother file.path (List.mem_map_of_mem hfile))

/-- **Every file is accounted for.**  Without links and without typings there is always a report, in
whichever order the files are written, and it tells of each path what became of it. -/
theorem redirectImports_accounts (hlinks : tree.HasNoLinks) (typesDir : Path)
    (files : List Path) :
    RedirectsTo typesDir files none tree (redirectImports typesDir files none tree).1
        (redirectImports typesDir files none tree).2 ∧
      ∀ result final, RedirectsTo typesDir files none tree result final →
        ∃ report, result = .ok report ∧ Accounts typesDir files tree report final := by
  refine ⟨redirectsTo_redirectImports typesDir files none tree, fun result final h => ?_⟩
  obtain ⟨written, hwritten, hend⟩ := h.cases
  rcases hend with ⟨_, hreport, rfl⟩ | ⟨_, _, hsome, _⟩ | ⟨_, _, _, hsome, _⟩
  · exact ⟨_, hreport, hwritten.accounts hlinks⟩
  · cases hsome
  · cases hsome

/-- A file under two spellings, one that is missing, and one without imports. -/
theorem redirectImports_accounts_spellings :
    let old := "import { h } from '@kiln/core';\n"
    let new := "import { h } from './kiln-public-runtime';\n"
    let tree : FileTree :=
      ⟨[(["types"], .directory), (["types", "a.d.ts"], .file old.toUTF8),
        (["types", "b.d.ts"], .file "export {};\n".toUTF8)], ["types"]⟩
    let run := redirectImports ⟨"/types"⟩
      [⟨"a.d.ts"⟩, ⟨"missing.d.ts"⟩, ⟨"/../types/a.d.ts"⟩, ⟨"b.d.ts"⟩] none tree
    tree.HasNoLinks ∧ ∃ report, run.1 = .ok report ∧
      report.failures.map (·.path) = [⟨"missing.d.ts"⟩] ∧
      report.changed = [⟨"/types/a.d.ts"⟩, ⟨"/../types/a.d.ts"⟩] ∧ report.unchanged = 1 ∧
      run.2.readText ⟨"/types/a.d.ts"⟩ = .ok new ∧
      run.2.lookup ["types", "b.d.ts"] = tree.lookup ["types", "b.d.ts"] := by
  intro old new tree run
  have hlinks : tree.HasNoLinks := hasNoLinks_of_entries (by simp [tree])
  have hplain : tree.spotOf false ⟨"/types/a.d.ts"⟩ = .ok (.found ["types", "a.d.ts"]) := by
    have hsteps : stepsOf "/types/a.d.ts".toList = [.name "types", .name "a.d.ts"] := by decide
    exact spotOf_eq_found_iff.mpr ⟨checkPath_eq_ok (by decide) (by decide) (by decide),
      hsteps ▸ .directory (by decide) rfl (.file (by decide) rfl)⟩
  -- above the root there is the root, so this is another spelling of the first file
  have hdotted : tree.spotOf false ⟨"/../types/a.d.ts"⟩ = .ok (.found ["types", "a.d.ts"]) := by
    have hsteps : stepsOf "/../types/a.d.ts".toList = [.up, .name "types", .name "a.d.ts"] := by
      decide
    exact spotOf_eq_found_iff.mpr ⟨checkPath_eq_ok (by decide) (by decide) (by decide),
      hsteps ▸ .up (.directory (by decide) rfl (.file (by decide) rfl))⟩
  have hother : tree.spotOf false ⟨"/types/b.d.ts"⟩ = .ok (.found ["types", "b.d.ts"]) := by
    have hsteps : stepsOf "/types/b.d.ts".toList = [.name "types", .name "b.d.ts"] := by decide
    exact spotOf_eq_found_iff.mpr ⟨checkPath_eq_ok (by decide) (by decide) (by decide),
      hsteps ▸ .directory (by decide) rfl (.file (by decide) rfl)⟩
  have hmissing : tree.spotOf false ⟨"/types/missing.d.ts"⟩ =
      .ok (.vacant ["types"] "missing.d.ts") := by
    have hsteps : stepsOf "/types/missing.d.ts".toList = [.name "types", .name "missing.d.ts"] := by
      decide
    rw [spotOf, checkPath_eq_ok (by decide) (by decide) (by decide), hsteps, walk]
    change tree.walk _ _ _ _ = _
    rw [walk]
    rfl
  have hunread : tree.readText ⟨"/types/missing.d.ts"⟩ = .error .notFound := by
    rw [readText, readBytes, entryOf, hmissing]
    rfl
  have hfirst : declaration? tree ⟨"a.d.ts"⟩ = some ⟨⟨"/types/a.d.ts"⟩, old⟩ :=
    declaration?_eq_some_iff.mpr ⟨by decide, _, _, hplain, rfl, fromUTF8?_toUTF8 old⟩
  have hsecond : declaration? tree ⟨"missing.d.ts"⟩ = none := by
    have hplace : Path.absolute? ⟨"missing.d.ts"⟩ tree.workPath = some ⟨"/types/missing.d.ts"⟩ := by
      decide
    simp [declaration?, hplace, hunread, Except.toOption]
  have hthird : declaration? tree ⟨"/../types/a.d.ts"⟩ = some ⟨⟨"/../types/a.d.ts"⟩, old⟩ :=
    declaration?_eq_some_iff.mpr ⟨by decide, _, _, hdotted, rfl, fromUTF8?_toUTF8 old⟩
  have hfourth : declaration? tree ⟨"b.d.ts"⟩ = some ⟨⟨"/types/b.d.ts"⟩, "export {};\n"⟩ :=
    declaration?_eq_some_iff.mpr ⟨by decide, _, _, hother, rfl, fromUTF8?_toUTF8 _⟩
  have hplainChanges : Declaration.Changes ⟨"/types"⟩ ⟨⟨"/types/a.d.ts"⟩, old⟩ := by
    decide +kernel
  have hdottedChanges : Declaration.Changes ⟨"/types"⟩ ⟨⟨"/../types/a.d.ts"⟩, old⟩ := by
    decide +kernel
  have hsame : ¬ Declaration.Changes ⟨"/types"⟩ ⟨⟨"/types/b.d.ts"⟩, "export {};\n"⟩ := by
    decide +kernel
  have hnew : redirect ⟨"/types"⟩ ⟨"/types/a.d.ts"⟩ old = new := by decide +kernel
  obtain ⟨hrun, hall⟩ := redirectImports_accounts hlinks ⟨"/types"⟩
    [⟨"a.d.ts"⟩, ⟨"missing.d.ts"⟩, ⟨"/../types/a.d.ts"⟩, ⟨"b.d.ts"⟩]
  obtain ⟨report, hreport, haccounts⟩ := hall _ _ hrun
  have hchanged : report.changed = [⟨"/types/a.d.ts"⟩, ⟨"/../types/a.d.ts"⟩] := by
    simp [haccounts.changed, declarations, hfirst, hsecond, hthird, hfourth, hplainChanges,
      hdottedChanges, hsame]
  refine ⟨hlinks, report, hreport, ?_, hchanged, ?_, ?_, ?_⟩
  · simp [haccounts.failures, hfirst, hsecond, hthird, hfourth]
  · simp [haccounts.unchanged, declarations, hfirst, hsecond, hthird, hfourth, hplainChanges,
      hdottedChanges, hsame]
  · obtain ⟨content, hcontent, hfinal⟩ :=
      haccounts.redirected ⟨"/types/a.d.ts"⟩ (by simp [hchanged])
    cases hcontent.symm.trans (readText_of_lookup hplain rfl)
    exact hnew ▸ hfinal
  · refine haccounts.kept _ fun path hpath hspot => ?_
    rw [hchanged] at hpath
    simp only [List.mem_cons, List.not_mem_nil, or_false] at hpath
    rcases hpath with rfl | rfl
    · simp [hplain] at hspot
    · simp [hdotted] at hspot

end WebComponents.Commands
