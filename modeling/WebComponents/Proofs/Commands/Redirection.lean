import WebComponents.Commands.RedirectImports
import WebComponents.Proofs.Files.Reading
import WebComponents.Proofs.Path.Ways

/-!
# What redirecting leaves behind

`RedirectsTo` is what a call of `redirectImports` may come to if the declaration files are written
in any order, a step of one between the steps of others.  A call has three phases:

```text
tree       all declaration files are read; those with a new text are pending
written    the pending files have their new texts, all of them (`Redirected`)
final      the framework's typings are copied, unless they cannot be read
```

The last phase can end the call with an error, and then the report on the second phase is lost: the
promise `AllOrReport` is kept only where nothing is pending or the typings can be read
(`redirectImports_allOrReport_iff`).
-/

namespace WebComponents.Commands

open Files Files.FileTree Report Typings

variable {typesDir path place typings : Path} {files : List Path} {typings? : Option Path}
  {tree written final : FileTree} {file : GeneratedFile} {location : Location} {content : String}
  {result : Except Problem RedirectReport} {strays : Text.Strays}

/-! ## Files with a new text -/

theorem readAndRedirect_eq_changed_iff :
    readAndRedirect typesDir tree path strays = .ok (.changed file) ↔
      ∃ place content, path.absolute? tree.workPath = some place ∧
        tree.readText place = .ok content ∧ redirect typesDir place content strays ≠ content ∧
        file = ⟨place, redirect typesDir place content strays, .always⟩ := by
  unfold readAndRedirect
  cases hplace : path.absolute? tree.workPath with
  | none => simp
  | some place =>
      cases hread : tree.readText place with
      | error cause => simp [hread, Except.mapError, Bind.bind, Except.bind]
      | ok content =>
          by_cases hsame : redirect typesDir place content strays = content
          · simp [hread, hsame, Except.mapError, Bind.bind, Except.bind, Pure.pure, Except.pure]
          · simp only [Except.mapError, Bind.bind, Except.bind, hread, if_neg hsame, Pure.pure,
              Except.pure, Except.ok.injEq, Redirection.changed.injEq, Option.some.injEq]
            constructor
            · rintro rfl
              exact ⟨place, content, rfl, hread, hsame, rfl⟩
            · rintro ⟨_, _, rfl, hother, _, rfl⟩
              cases hread.symm.trans hother
              rfl

/-- What is read of the declaration files. -/
def readings (typesDir : Path) (tree : FileTree) (files : List Path)
    (strays : Text.Strays := .none) : List (Path × Except Problem Redirection) :=
  files.map fun path => (path, readAndRedirect typesDir tree path strays)

/-- The declaration files with a new text. -/
def pending (typesDir : Path) (tree : FileTree) (files : List Path)
    (strays : Text.Strays := .none) : List GeneratedFile :=
  pendingFiles (readings typesDir tree files strays)

theorem mem_pending_iff :
    file ∈ pending typesDir tree files strays ↔
      ∃ path ∈ files, readAndRedirect typesDir tree path strays = .ok (.changed file) := by
  unfold pending pendingFiles readings
  rw [List.filterMap_map, List.mem_filterMap]
  refine exists_congr fun path => and_congr_right fun _ => ?_
  simp only [Function.comp]
  split
  · rename_i other heq
    simp [heq]
  · rename_i hne
    exact iff_of_false nofun (hne file)

/-- Each of them is read, and no other text comes of it but the one that it is to have. -/
theorem exists_of_mem_pending (h : file ∈ pending typesDir tree files strays) :
    file.overwrite = .always ∧ file.path.isAbsolute = true ∧
      ∃ content, tree.readText file.path = .ok content ∧
        file.content = redirect typesDir file.path content strays ∧ file.content ≠ content := by
  obtain ⟨path, _, hchanged⟩ := mem_pending_iff.mp h
  obtain ⟨place, content, hplace, hread, hne, rfl⟩ := readAndRedirect_eq_changed_iff.mp hchanged
  have hwork : tree.workPath.isAbsolute = true := by
    simp [FileTree.workPath, Path.isAbsolute]
  exact ⟨rfl, Path.isAbsolute_of_absolute? hwork hplace, content, hread, rfl, hne⟩

theorem overwrites_of_mem_pending (h : file ∈ pending typesDir tree files strays) :
    tree.Overwrites file := by
  obtain ⟨hrule, habsolute, content, hread, _⟩ := exists_of_mem_pending h
  obtain ⟨location, bytes, hspot, hfile, _⟩ := readText_eq_ok_iff.mp hread
  exact ⟨hrule, habsolute, location, bytes, hspot, hfile⟩

/-! ## When they are written -/

/-- The pending files have been written over. -/
structure Redirected (typesDir : Path) (files : List Path) (tree written : FileTree)
    (strays : Text.Strays := .none) : Prop where
  renews : tree.Renews (pending typesDir tree files strays) written
  renewed : ∀ file ∈ pending typesDir tree files strays, ∀ location,
    tree.spotOf false file.path = .ok (.found location) →
      tree.Renewed (pending typesDir tree files strays) written location

theorem Redirected.sameShape (h : Redirected typesDir files tree written strays) :
    tree.SameShape written :=
  h.renews.sameShape fun _ => overwrites_of_mem_pending

/-- A renewed file has another content than before, and both are texts. -/
theorem exists_of_renewed
    (h : tree.Renewed (pending typesDir tree files strays) written location) :
    ∃ file ∈ pending typesDir tree files strays,
      tree.spotOf false file.path = .ok (.found location) ∧
      ∃ content bytes, tree.lookup location = some (.file bytes) ∧
        String.fromUTF8? bytes = some content ∧ file.content ≠ content ∧
        file.content = redirect typesDir file.path content strays ∧
        written.lookup location = some (.file file.content.toUTF8) := by
  obtain ⟨file, hfile, hspot, hnew⟩ := h
  obtain ⟨_, _, content, hread, hcontent, hne⟩ := exists_of_mem_pending hfile
  obtain ⟨other, bytes, hother, hbytes, htext⟩ := readText_eq_ok_iff.mp hread
  cases hspot.symm.trans hother
  exact ⟨file, hfile, hspot, content, bytes, hbytes, htext, hne, hcontent, hnew⟩

/-- What could be read before can be read now, and nothing else. -/
theorem Redirected.exists_readText_iff (h : Redirected typesDir files tree written strays)
    (path : Path) :
    (∃ text, written.readText path = .ok text) ↔ ∃ text, tree.readText path = .ok text := by
  have hsame {location : Location} (heq : written.lookup location = tree.lookup location) :
      (∃ content, written.lookup location = some (.file content) ∧
        ∃ text, String.fromUTF8? content = some text) ↔
      ∃ content, tree.lookup location = some (.file content) ∧
        ∃ text, String.fromUTF8? content = some text := by
    rw [heq]
  have hall (location : Location) :
      (∃ content, written.lookup location = some (.file content) ∧
        ∃ text, String.fromUTF8? content = some text) ↔
      ∃ content, tree.lookup location = some (.file content) ∧
        ∃ text, String.fromUTF8? content = some text := by
    rcases h.renews.lookup_eq location with heq | hrenewed
    · exact hsame heq
    · obtain ⟨file, _, _, content, bytes, hbytes, htext, _, _, hnew⟩ := exists_of_renewed hrenewed
      exact iff_of_true ⟨_, hnew, _, fromUTF8?_toUTF8 _⟩ ⟨bytes, hbytes, content, htext⟩
  have hread (tree : FileTree) : (∃ text, tree.readText path = .ok text) ↔
      ∃ location, tree.spotOf false path = .ok (.found location) ∧
        ∃ content, tree.lookup location = some (.file content) ∧
          ∃ text, String.fromUTF8? content = some text := by
    simp only [readText_eq_ok_iff]
    constructor
    · rintro ⟨text, location, content, hspot, hfile, htext⟩
      exact ⟨location, hspot, content, hfile, text, htext⟩
    · rintro ⟨location, hspot, content, hfile, text, htext⟩
      exact ⟨text, location, content, hspot, hfile, htext⟩
  rw [hread, hread, h.sameShape.spotOf_eq]
  exact exists_congr fun location => and_congr_right fun _ => hall location

/-! ## The call -/

/-- What a call of `redirectImports` may return and leave behind, in whichever order the declaration
files are written. -/
def RedirectsTo (typesDir : Path) (files : List Path) (typings? : Option Path) (tree : FileTree)
    (result : Except Problem RedirectReport) (final : FileTree)
    (strays : Text.Strays := .none) : Prop :=
  ∃ outcomes written, RunsTo tree (pending typesDir tree files strays) outcomes written ∧
    let unchanged := unchangedCount (readings typesDir tree files strays)
    let failures := unreadable (readings typesDir tree files strays) ++ failedFiles outcomes
    match typings? with
    | none => result = .ok ⟨donePaths outcomes, unchanged, none, failures⟩ ∧ final = written
    | some typings =>
      match copyTypings typings [typesDir] written with
      | (.error problem, left) => result = .error problem ∧ final = left
      | (.ok copies, left) =>
        result = .ok ⟨donePaths outcomes, unchanged, (donePaths copies).getLast?,
          failures ++ failedFiles copies⟩ ∧ final = left

theorem redirectsTo_redirectImports (typesDir : Path) (files : List Path) (typings? : Option Path)
    (tree : FileTree) (strays : Text.Strays := .none) :
    RedirectsTo typesDir files typings? tree
      (redirectImports typesDir files typings? tree strays).1
      (redirectImports typesDir files typings? tree strays).2 strays := by
  refine ⟨_, _, runsTo_writeAll tree (pending typesDir tree files strays), ?_⟩
  unfold redirectImports pending readings
  cases typings? with
  | none => exact ⟨rfl, rfl⟩
  | some typings =>
      simp only
      rcases copyTypings typings [typesDir] (writeAll tree (pendingFiles (files.map fun path =>
        (path, readAndRedirect typesDir tree path strays)))).2 with ⟨_ | _, left⟩
      · exact ⟨rfl, rfl⟩
      · exact ⟨rfl, rfl⟩

/-- The copy of the typings. -/
def typingsCopy (typesDir : Path) (content : String) : GeneratedFile :=
  ⟨typingsPath typesDir, content, .always⟩

/-- The report of a call whose typings, if there are any, were copied with the given result. -/
def reportOf (typesDir : Path) (files : List Path) (tree : FileTree)
    (copy? : Option (Except Problem WriteResult)) (strays : Text.Strays := .none) :
    RedirectReport where
  changed := (pending typesDir tree files strays).map (·.path)
  unchanged := unchangedCount (readings typesDir tree files strays)
  typings? := (donePaths (copy?.toList.map (⟨typingsPath typesDir, ·⟩))).getLast?
  failures := unreadable (readings typesDir tree files strays) ++
    failedFiles (copy?.toList.map (⟨typingsPath typesDir, ·⟩))

theorem donePaths_written (files : List GeneratedFile) :
    donePaths (files.map fun file => ⟨file.path, .ok .written⟩) = files.map (·.path) := by
  unfold donePaths
  rw [List.filterMap_map, ← List.filterMap_eq_map]
  rfl

theorem failedFiles_written (files : List GeneratedFile) :
    failedFiles (files.map fun file => ⟨file.path, .ok .written⟩) = [] := by
  unfold failedFiles
  rw [List.filterMap_map]
  exact List.filterMap_eq_nil_iff.mpr fun _ _ => rfl

/-- How a call ends: without typings, with typings that cannot be read, or with a copy of them. -/
theorem RedirectsTo.cases (h : RedirectsTo typesDir files typings? tree result final strays) :
    ∃ written, Redirected typesDir files tree written strays ∧
      (typings? = none ∧ result = .ok (reportOf typesDir files tree none strays) ∧
        final = written ∨
      (∃ typings cause, typings? = some typings ∧ written.readText typings = .error cause ∧
        result = .error ⟨.readTypings, typings, cause⟩ ∧ final = written) ∨
      ∃ typings content copied, typings? = some typings ∧
        written.readText typings = .ok content ∧
        (typingsCopy typesDir content).write written = (copied, final) ∧
        result = .ok (reportOf typesDir files tree (some copied) strays)) := by
  obtain ⟨outcomes, written, hruns, hend⟩ := h
  obtain ⟨rfl, hrenews, hrenewed⟩ := hruns.renews fun _ => overwrites_of_mem_pending
  refine ⟨written, ⟨hrenews, hrenewed⟩, ?_⟩
  simp only [donePaths_written, failedFiles_written, List.append_nil] at hend
  cases typings? with
  | none =>
      obtain ⟨rfl, rfl⟩ := hend
      refine Or.inl ⟨rfl, ?_, rfl⟩
      simp [reportOf, donePaths, failedFiles]
  | some typings =>
      refine Or.inr ?_
      cases hread : written.readText typings with
      | error cause =>
          simp only [copyTypings, hread] at hend
          obtain ⟨rfl, rfl⟩ := hend
          exact Or.inl ⟨typings, cause, rfl, hread, rfl, rfl⟩
      | ok content =>
          rcases hcopy : (typingsCopy typesDir content).write written with ⟨copied, left⟩
          simp only [copyTypings, hread, List.map_cons, List.map_nil, writeAll] at hend
          change (typingsCopy typesDir content).write written = _ at hcopy
          unfold typingsCopy at hcopy
          rw [hcopy] at hend
          obtain ⟨rfl, rfl⟩ := hend
          exact Or.inr ⟨typings, content, copied, rfl, hread, hcopy, rfl⟩

/-! ## The promise -/

/-- What the caller may rely on: an error means that nothing has been changed, and a file that has
been changed is in the report. -/
structure AllOrReport (tree final : FileTree) (result : Except Problem RedirectReport) : Prop where
  kept : ∀ problem, result = .error problem → ∀ location,
    final.lookup location = tree.lookup location
  listed : ∀ location content, tree.lookup location = some (.file content) →
    final.lookup location ≠ some (.file content) →
    ∃ report, result = .ok report ∧ ∃ path ∈ report.changed ++ report.typings?.toList,
      final.spotOf false path = .ok (.found location)

theorem mem_typings?_reportOf (result : Except Problem WriteResult) (h : result = .ok .written) :
    typingsPath typesDir ∈ (reportOf typesDir files tree (some result)).typings?.toList := by
  subst h
  simp [reportOf, donePaths]

/-- A report lists all files that have been changed. -/
theorem RedirectsTo.listed {report : RedirectReport} {bytes : ByteArray}
    (h : RedirectsTo typesDir files typings? tree (.ok report) final)
    (hfile : tree.lookup location = some (.file bytes))
    (hchanged : final.lookup location ≠ some (.file bytes)) :
    ∃ path ∈ report.changed ++ report.typings?.toList,
      final.spotOf false path = .ok (.found location) := by
  obtain ⟨written, hwritten, hend⟩ := h.cases
  -- a file that was renewed in the second phase is among the pending ones
  have hrenewed (hnew : written.lookup location ≠ some (.file bytes)) :
      ∃ path ∈ (pending typesDir tree files).map (·.path),
        written.spotOf false path = .ok (.found location) := by
    rcases hwritten.renews.lookup_eq location with heq | ⟨file, hmem, hspot, _⟩
    · exact absurd (heq.trans hfile) hnew
    · exact ⟨file.path, List.mem_map_of_mem hmem, hwritten.sameShape.spotOf_eq.trans hspot⟩
  rcases hend with ⟨_, hreport, rfl⟩ | ⟨_, _, _, _, hreport, _⟩ |
    ⟨typings, content, copied, _, _, hcopy, hreport⟩
  · cases hreport
    obtain ⟨path, hpath, hspot⟩ := hrenewed hchanged
    exact ⟨path, List.mem_append_left _ hpath, hspot⟩
  · cases hreport
  · cases hreport
    by_cases hnew : written.lookup location = some (.file bytes)
    · rcases lookup_of_write rfl hcopy hnew with heq | ⟨hresult, hspot, _⟩
      · exact absurd heq hchanged
      · exact ⟨_, List.mem_append_right _ (mem_typings?_reportOf copied hresult), hspot⟩
    · obtain ⟨path, hpath, hspot⟩ := hrenewed hnew
      exact ⟨path, List.mem_append_left _ hpath, spotOf_of_write rfl hcopy hspot⟩

/-- If nothing is pending, an error leaves everything as it was. -/
theorem RedirectsTo.kept {problem : Problem}
    (h : RedirectsTo typesDir files typings? tree (.error problem) final)
    (hnone : pending typesDir tree files = []) (location : Location) :
    final.lookup location = tree.lookup location := by
  obtain ⟨written, hwritten, hend⟩ := h.cases
  rcases hend with ⟨_, hresult, _⟩ | ⟨_, _, _, _, _, rfl⟩ | ⟨_, _, _, _, _, _, hresult⟩
  · cases hresult
  · rcases hwritten.renews.lookup_eq location with heq | ⟨file, hmem, _⟩
    · exact heq
    · rw [hnone] at hmem
      cases hmem
  · cases hresult

/-- With typings that can be read there is always a report. -/
theorem RedirectsTo.exists_report (h : RedirectsTo typesDir files typings? tree result final)
    (hread : ∀ typings ∈ typings?, ∃ text, tree.readText typings = .ok text) :
    ∃ report, result = .ok report := by
  obtain ⟨written, hwritten, hend⟩ := h.cases
  rcases hend with ⟨_, hresult, _⟩ | ⟨typings, cause, rfl, herror, _⟩ |
    ⟨_, _, _, _, _, _, hresult⟩
  · exact ⟨_, hresult⟩
  · obtain ⟨text, htext⟩ := (hwritten.exists_readText_iff typings).mpr (hread typings rfl)
    cases herror.symm.trans htext
  · exact ⟨_, hresult⟩

/-- A file has been written, and then the typings cannot be read. -/
theorem RedirectsTo.not_allOrReport
    (h : RedirectsTo typesDir files (some typings) tree result final)
    (hfile : file ∈ pending typesDir tree files)
    (hread : ¬ ∃ text, tree.readText typings = .ok text) : ¬ AllOrReport tree final result := by
  intro hpromise
  obtain ⟨written, hwritten, hend⟩ := h.cases
  have hunread : ¬ ∃ text, written.readText typings = .ok text :=
    mt (hwritten.exists_readText_iff typings).mp hread
  rcases hend with ⟨hnone, _⟩ | ⟨_, _, _, _, rfl, rfl⟩ | ⟨_, content, _, hsome, htext, _⟩
  · cases hnone
  · obtain ⟨_, _, content, hcontent, _⟩ := exists_of_mem_pending hfile
    obtain ⟨location, _, hspot, _⟩ := readText_eq_ok_iff.mp hcontent
    obtain ⟨other, _, _, old, bytes, hbytes, hold, hne, _, hnew⟩ :=
      exists_of_renewed (hwritten.renewed file hfile location hspot)
    have hkept := hpromise.kept _ rfl location
    rw [hnew, hbytes, Option.some_inj, Entry.file.injEq] at hkept
    rw [← hkept, fromUTF8?_toUTF8, Option.some_inj] at hold
    exact hne hold
  · cases hsome
    exact hunread ⟨content, htext⟩

/-- **All or a report.**  Redirecting keeps its promise, in whichever order the files are written,
if and only if no declaration file has a new text or the typings, if they are asked for, can be
read. -/
theorem redirectImports_allOrReport_iff (typesDir : Path) (files : List Path)
    (typings? : Option Path) (tree : FileTree) :
    RedirectsTo typesDir files typings? tree (redirectImports typesDir files typings? tree).1
        (redirectImports typesDir files typings? tree).2 ∧
      ((∀ result final, RedirectsTo typesDir files typings? tree result final →
          AllOrReport tree final result) ↔
        (∀ path ∈ files, ∀ file, readAndRedirect typesDir tree path ≠ .ok (.changed file)) ∨
          ∀ typings ∈ typings?, ∃ text, tree.readText typings = .ok text) := by
  have hrun := redirectsTo_redirectImports typesDir files typings? tree
  refine ⟨hrun, fun h => ?_, ?_⟩
  · by_contra hneither
    push Not at hneither
    obtain ⟨⟨path, hpath, file, hchanged⟩, typings, rfl, hread⟩ := hneither
    have hfile := mem_pending_iff.mpr ⟨path, hpath, hchanged⟩
    exact hrun.not_allOrReport hfile (not_exists.mpr hread) (h _ _ hrun)
  · intro hcondition result final h
    cases result with
    | ok report =>
        exact ⟨nofun, fun location bytes hfile hchanged =>
          ⟨report, rfl, h.listed hfile hchanged⟩⟩
    | error problem =>
        -- only typings that cannot be read end in an error, so nothing was pending
        have hnone : pending typesDir tree files = [] := by
          rcases hcondition with hunchanged | hread
          · refine List.eq_nil_iff_forall_not_mem.mpr fun file hfile => ?_
            obtain ⟨path, hpath, hchanged⟩ := mem_pending_iff.mp hfile
            exact hunchanged path hpath file hchanged
          · obtain ⟨report, hreport⟩ := h.exists_report hread
            cases hreport
        exact ⟨fun _ _ => h.kept hnone, fun location bytes hfile hchanged =>
          absurd ((h.kept hnone location).trans hfile) hchanged⟩

/-- The file has its new text, and the caller is only told that the typings are missing. -/
theorem not_allOrReport_missing :
    let tree : FileTree :=
      ⟨[(["types"], .directory),
        (["types", "a.d.ts"], .file "import { h } from '@kiln/core';\n".toUTF8)], []⟩
    let run := redirectImports ⟨"/types"⟩ [⟨"/types/a.d.ts"⟩] (some ⟨"/missing.d.ts"⟩) tree
    run.1 = .error ⟨.readTypings, ⟨"/missing.d.ts"⟩, .notFound⟩ ∧
      run.2.lookup ["types", "a.d.ts"] =
        some (.file "import { h } from './kiln-public-runtime';\n".toUTF8) ∧
      ¬ AllOrReport tree run.2 run.1 := by
  intro tree run
  let file : GeneratedFile :=
    ⟨⟨"/types/a.d.ts"⟩, "import { h } from './kiln-public-runtime';\n", .always⟩
  have hspot : tree.spotOf false ⟨"/types/a.d.ts"⟩ = .ok (.found ["types", "a.d.ts"]) := by
    have hsteps : stepsOf "/types/a.d.ts".toList = [.name "types", .name "a.d.ts"] := by decide
    exact spotOf_eq_found_iff.mpr ⟨checkPath_eq_ok (by decide) (by decide) (by decide),
      hsteps ▸ .directory (by decide) rfl (.file (by decide) rfl)⟩
  have hmissing : tree.spotOf false ⟨"/missing.d.ts"⟩ = .ok (.vacant [] "missing.d.ts") := by
    have hsteps : stepsOf "/missing.d.ts".toList = [.name "missing.d.ts"] := by decide
    rw [spotOf, checkPath_eq_ok (by decide) (by decide) (by decide), hsteps, walk]
    rfl
  -- the typings are missing after the declarations are written as well
  have hunread {later : FileTree} (h : tree.SameShape later) :
      later.readText ⟨"/missing.d.ts"⟩ = .error .notFound := by
    rw [readText, readBytes, entryOf, h.spotOf_eq, hmissing]
    rfl
  have hpending : pending ⟨"/types"⟩ tree [⟨"/types/a.d.ts"⟩] = [file] := by
    have hread : tree.readText ⟨"/types/a.d.ts"⟩ = .ok "import { h } from '@kiln/core';\n" :=
      readText_of_lookup hspot rfl
    have hchanged : readAndRedirect ⟨"/types"⟩ tree ⟨"/types/a.d.ts"⟩ = .ok (.changed file) :=
      readAndRedirect_eq_changed_iff.mpr
        ⟨_, _, by decide, hread, by decide +kernel, by decide +kernel⟩
    simp [pending, pendingFiles, readings, hchanged]
  have hfile : file ∈ pending ⟨"/types"⟩ tree [⟨"/types/a.d.ts"⟩] := by simp [hpending]
  have hrun := redirectsTo_redirectImports ⟨"/types"⟩ [⟨"/types/a.d.ts"⟩] (some ⟨"/missing.d.ts"⟩)
    tree
  have hfirst : ¬ ∃ text, tree.readText ⟨"/missing.d.ts"⟩ = .ok text := by
    rintro ⟨text, htext⟩
    cases (hunread (SameShape.refl tree)).symm.trans htext
  obtain ⟨written, hwritten, hresult, hfinal⟩ : ∃ written,
      Redirected ⟨"/types"⟩ [⟨"/types/a.d.ts"⟩] tree written ∧
        run.1 = .error ⟨.readTypings, ⟨"/missing.d.ts"⟩, .notFound⟩ ∧ run.2 = written := by
    obtain ⟨written, hwritten, hend⟩ := hrun.cases
    have hcause := hunread hwritten.sameShape
    rcases hend with ⟨hnone, _⟩ | ⟨_, cause, hsome, herror, hresult, hfinal⟩ |
      ⟨_, content, _, hsome, htext, _⟩
    · cases hnone
    · cases hsome
      cases hcause.symm.trans herror
      exact ⟨written, hwritten, hresult, hfinal⟩
    · cases hsome
      cases hcause.symm.trans htext
  obtain ⟨_, hmem, _, hnew⟩ := hwritten.renewed file hfile _ hspot
  rw [hpending, List.mem_singleton] at hmem
  subst hmem
  exact ⟨hresult, hfinal ▸ hnew, hrun.not_allOrReport hfile hfirst⟩

end WebComponents.Commands
