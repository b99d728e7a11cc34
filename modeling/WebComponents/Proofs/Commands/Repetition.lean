import WebComponents.Proofs.Commands.Accounting
import WebComponents.Proofs.Typings.Repetition

/-!
# Redirecting again

What a call leaves in a declaration file has no import of the framework any more, so the next call
reports the file as unchanged (`redirectImports_again`).  Two things can disturb this
(`Undisturbed`):

```text
a specifier with a quote     it ends at its quote, and what follows may be an import
the copy of the typings      it may go over the declaration file, which then has their text
```

A specifier depends on the path under which the file is written.  With links a file may be pending
under several paths, and any of them may give it its text, so all their specifiers count.
-/

namespace WebComponents.Commands

open Files Files.FileTree Report Typings

variable {typesDir path place : Path} {files : List Path} {typings? : Option Path}
  {tree written final : FileTree} {content : String} {result : Except Problem RedirectReport}

theorem readAndRedirect_eq_unchanged_iff :
    readAndRedirect typesDir tree path = .ok .unchanged ↔
      ∃ place content, path.absolute? tree.workPath = some place ∧
        tree.readText place = .ok content ∧ ¬ HasImport content.toList := by
  unfold readAndRedirect
  cases hplace : path.absolute? tree.workPath with
  | none => simp
  | some place =>
      cases hread : tree.readText place with
      | error cause => simp [hread, Except.mapError, Bind.bind, Except.bind]
      | ok content =>
          simp only [hread, Except.mapError, Bind.bind, Except.bind, Pure.pure, Except.pure,
            Except.ok.injEq, Option.some.injEq]
          constructor
          · intro hunchanged
            refine ⟨place, content, rfl, hread, (redirect_eq_self_iff typesDir place content).mp ?_⟩
            by_contra hne
            rw [if_neg hne] at hunchanged
            cases hunchanged
          · rintro ⟨_, other, rfl, hother, himport⟩
            cases hread.symm.trans hother
            exact if_pos ((redirect_eq_self_iff typesDir place content).mpr himport)

/-- Both paths lead to the same place. -/
def Meet (tree : FileTree) (path other : Path) : Prop :=
  ∃ location, tree.spotOf false path = .ok (.found location) ∧
    tree.spotOf false other = .ok (.found location)

/-- The file could be read before the call, every specifier that may be put into it has no quotes,
and the typings are not copied over it. -/
structure Undisturbed (typesDir : Path) (files : List Path) (typings? : Option Path)
    (tree final : FileTree) (place : Path) : Prop where
  readable : ∃ content, tree.readText place = .ok content
  noQuotes : ∀ file ∈ pending typesDir tree files, Meet tree file.path place →
    HasNoQuotes (typingsSpecifier typesDir file.path)
  apart : ∀ typings ∈ typings?, ¬ Meet final (typingsPath typesDir) place

/-- Each listed file that can be read after the call is undisturbed. -/
def AllUndisturbed (typesDir : Path) (files : List Path) (typings? : Option Path)
    (tree final : FileTree) : Prop :=
  ∀ path ∈ files, ∀ place text, path.absolute? tree.workPath = some place →
    final.readText place = .ok text → Undisturbed typesDir files typings? tree final place

/-! ## What the call leaves -/

/-- A listed file has no import after the pending files have been written. -/
theorem Redirected.exists_without_import (h : Redirected typesDir files tree written)
    (hpath : path ∈ files) (hplace : path.absolute? tree.workPath = some place)
    (hread : tree.readText place = .ok content)
    (hquotes : ∀ file ∈ pending typesDir tree files, Meet tree file.path place →
      HasNoQuotes (typingsSpecifier typesDir file.path)) :
    ∃ text, written.readText place = .ok text ∧ ¬ HasImport text.toList := by
  obtain ⟨location, bytes, hspot, hbytes, htext⟩ := readText_eq_ok_iff.mp hread
  have hspot' := h.sameShape.spotOf_eq.trans hspot
  have hrenewed (hnew : tree.Renewed (pending typesDir tree files) written location) :
      ∃ text, written.readText place = .ok text ∧ ¬ HasImport text.toList := by
    obtain ⟨file, hfile, hlead, old, _, _, _, _, hcontent, hlookup⟩ := exists_of_renewed hnew
    refine ⟨file.content, readText_of_lookup hspot' hlookup, ?_⟩
    rw [hcontent]
    exact not_hasImport_redirect (hquotes file hfile ⟨location, hlead, hspot⟩) old
  by_cases himport : HasImport content.toList
  · have hchanges : redirect typesDir place content ≠ content := fun hsame =>
      (redirect_eq_self_iff typesDir place content).mp hsame himport
    have hfile := mem_pending_iff.mpr ⟨path, hpath, readAndRedirect_eq_changed_iff.mpr
      ⟨place, content, hplace, hread, hchanges, rfl⟩⟩
    exact hrenewed (h.renewed _ hfile location hspot)
  · rcases h.renews.lookup_eq location with hkept | hnew
    · exact ⟨content, readText_eq_ok_iff.mpr ⟨location, bytes, hspot', hkept.trans hbytes, htext⟩,
        himport⟩
    · exact hrenewed hnew

/-- After the pending files at most the typings are written. -/
theorem RedirectsTo.exists_written (h : RedirectsTo typesDir files typings? tree result final) :
    ∃ written, Redirected typesDir files tree written ∧
      (final = written ∨ ∃ typings ∈ typings?, ∃ content copied,
        (typingsCopy typesDir content).write written = (copied, final)) := by
  obtain ⟨written, hwritten, hend⟩ := h.cases
  refine ⟨written, hwritten, ?_⟩
  rcases hend with ⟨_, _, hfinal⟩ | ⟨_, _, _, _, _, hfinal⟩ |
    ⟨typings, content, copied, hsome, _, hcopy, _⟩
  · exact Or.inl hfinal
  · exact Or.inl hfinal
  · exact Or.inr ⟨typings, hsome, content, copied, hcopy⟩

theorem RedirectsTo.workPath_eq (h : RedirectsTo typesDir files typings? tree result final) :
    final.workPath = tree.workPath := by
  obtain ⟨written, hwritten, hend⟩ := h.exists_written
  have hdir : final.workDir = written.workDir := by
    rcases hend with rfl | ⟨_, _, _, _, hcopy⟩
    · rfl
    · rcases exists_of_write rfl hcopy with ⟨_, hadds⟩ | ⟨_, made, put, hadds, rfl, _⟩
      · exact hadds.workDir_eq
      · exact hadds.workDir_eq
  rw [workPath, hdir, hwritten.renews.workDir_eq, workPath]

theorem RedirectsTo.exists_readText (h : RedirectsTo typesDir files typings? tree result final)
    (hread : ∃ content, tree.readText place = .ok content) :
    ∃ text, final.readText place = .ok text := by
  obtain ⟨written, hwritten, hend⟩ := h.exists_written
  obtain ⟨text, htext⟩ := (hwritten.exists_readText_iff place).mpr hread
  rcases hend with rfl | ⟨_, _, _, _, hcopy⟩
  · exact ⟨text, htext⟩
  · rcases readText_of_write_or rfl hcopy htext with hkept | ⟨_, hnew⟩
    · exact ⟨text, hkept⟩
    · exact ⟨_, hnew⟩

/-- A file that is not disturbed has no import in the end. -/
theorem RedirectsTo.readAndRedirect_again
    (h : RedirectsTo typesDir files typings? tree result final)
    (hpath : path ∈ files) (hplace : path.absolute? tree.workPath = some place)
    (hundisturbed : Undisturbed typesDir files typings? tree final place) :
    readAndRedirect typesDir final path = .ok .unchanged := by
  obtain ⟨content, hread⟩ := hundisturbed.readable
  refine readAndRedirect_eq_unchanged_iff.mpr ?_
  rw [h.workPath_eq]
  obtain ⟨written, hwritten, hend⟩ := h.exists_written
  obtain ⟨text, htext, himport⟩ :=
    hwritten.exists_without_import hpath hplace hread hundisturbed.noQuotes
  rcases hend with rfl | ⟨typings, hsome, _, _, hcopy⟩
  · exact ⟨place, text, hplace, htext, himport⟩
  · rcases readText_of_write_or rfl hcopy htext with hkept | ⟨hsame, _⟩
    · exact ⟨place, text, hplace, hkept, himport⟩
    · obtain ⟨location, _, hspot, _⟩ := readText_eq_ok_iff.mp htext
      have hfound := spotOf_of_write rfl hcopy hspot
      exact absurd ⟨location, hsame.symm.trans hfound, hfound⟩ (hundisturbed.apart typings hsome)

/-! ## The next report -/

/-- Without typings only a quote can disturb a file. -/
theorem RedirectsTo.allUndisturbed (h : RedirectsTo typesDir files none tree result final)
    (hquotes : ∀ file ∈ pending typesDir tree files,
      HasNoQuotes (typingsSpecifier typesDir file.path)) :
    AllUndisturbed typesDir files none tree final := by
  intro path _ place text _ hread
  obtain ⟨written, hwritten, rfl | ⟨_, hsome, _⟩⟩ := h.exists_written
  · exact ⟨(hwritten.exists_readText_iff place).mp ⟨text, hread⟩,
      fun file hfile _ => hquotes file hfile, nofun⟩
  · cases hsome

/-- If nothing that can be read in the end is disturbed, the files that are found unchanged are
those that could be read in the beginning. -/
theorem RedirectsTo.unchanged_iff (h : RedirectsTo typesDir files typings? tree result final)
    (hall : AllUndisturbed typesDir files typings? tree final) (hpath : path ∈ files) :
    readAndRedirect typesDir final path = .ok .unchanged ↔
      (declaration? tree path).isSome = true := by
  rw [Option.isSome_iff_exists]
  constructor
  · intro hunchanged
    obtain ⟨place, text, hplace, hread, _⟩ := readAndRedirect_eq_unchanged_iff.mp hunchanged
    rw [h.workPath_eq] at hplace
    obtain ⟨content, hbefore⟩ := (hall path hpath place text hplace hread).readable
    exact ⟨⟨place, content⟩, declaration?_eq_some_iff.mpr
      ⟨hplace, readText_eq_ok_iff.mp hbefore⟩⟩
  · rintro ⟨declaration, hdeclaration⟩
    obtain ⟨hplace, hread⟩ := declaration?_eq_some_iff.mp hdeclaration
    obtain ⟨text, htext⟩ := h.exists_readText ⟨_, readText_eq_ok_iff.mpr hread⟩
    exact h.readAndRedirect_again hpath hplace (hall path hpath _ text hplace htext)

theorem RedirectsTo.pending_eq_nil (h : RedirectsTo typesDir files typings? tree result final)
    (hall : AllUndisturbed typesDir files typings? tree final) :
    pending typesDir final files = [] := by
  refine List.eq_nil_iff_forall_not_mem.mpr fun file hfile => ?_
  obtain ⟨path, hpath, hchanged⟩ := mem_pending_iff.mp hfile
  obtain ⟨place, text, hplace, hread, _⟩ := readAndRedirect_eq_changed_iff.mp hchanged
  rw [h.workPath_eq] at hplace
  have hunchanged := h.readAndRedirect_again hpath hplace (hall path hpath place text hplace hread)
  cases hunchanged.symm.trans hchanged

theorem RedirectsTo.unchangedCount_again (h : RedirectsTo typesDir files typings? tree result final)
    (hall : AllUndisturbed typesDir files typings? tree final) :
    unchangedCount (readings typesDir final files) = (declarations tree files).length := by
  rw [declarations, List.length_filterMap_eq_countP, unchangedCount, readings, List.countP_map]
  refine List.countP_congr fun path hpath => ?_
  rw [← h.unchanged_iff hall hpath]
  simp only [Function.comp]
  split <;> simp_all

theorem RedirectsTo.exists_reportOf {report : RedirectReport}
    (h : RedirectsTo typesDir files typings? tree (.ok report) final) :
    ∃ copy?, report = reportOf typesDir files tree copy? := by
  obtain ⟨_, _, ⟨_, hreport, _⟩ | ⟨_, _, _, _, hreport, _⟩ | ⟨_, _, copied, _, _, _, hreport⟩⟩ :=
    h.cases
  · cases hreport
    exact ⟨none, rfl⟩
  · cases hreport
  · cases hreport
    exact ⟨some copied, rfl⟩

/-- **A second call.**  Redirecting a text twice comes to the same as redirecting it once, if the
specifier has no quotes.  A file that a call has not disturbed is read as unchanged by the next
call, and if there are no other files, the next report counts as unchanged all that could be read.
-/
theorem redirectImports_again (typesDir : Path) :
    (∀ file, HasNoQuotes (typingsSpecifier typesDir file) → ∀ content,
      redirect typesDir file (redirect typesDir file content) = redirect typesDir file content) ∧
    ∀ files typings? tree result final, RedirectsTo typesDir files typings? tree result final →
      (∀ path ∈ files, ∀ place, path.absolute? tree.workPath = some place →
        Undisturbed typesDir files typings? tree final place →
          readAndRedirect typesDir final path = .ok .unchanged) ∧
      (AllUndisturbed typesDir files typings? tree final →
        ∀ again? report later, RedirectsTo typesDir files again? final (.ok report) later →
          report.changed = [] ∧ report.unchanged = (declarations tree files).length) := by
  refine ⟨fun file h content => redirect_redirect h content typesDir file, ?_⟩
  intro files typings? tree result final h
  refine ⟨fun path hpath place hplace hundisturbed =>
    h.readAndRedirect_again hpath hplace hundisturbed, fun hall again? report later hagain => ?_⟩
  obtain ⟨copy?, rfl⟩ := hagain.exists_reportOf
  refine ⟨?_, h.unchangedCount_again hall⟩
  rw [reportOf, h.pending_eq_nil hall, List.map_nil]

/-- The name of the package in the path of the types does no harm. -/
theorem redirectImports_again_scoped :
    let old := "import { h } from '@kiln/core';\n"
    let new := "import { h } from './@kiln/core/kiln-public-runtime';\n"
    let tree : FileTree :=
      ⟨[(["dist"], .directory), (["dist", "a.d.ts"], .file old.toUTF8)], ["dist"]⟩
    let first := redirectImports ⟨"/dist/@kiln/core"⟩ [⟨"a.d.ts"⟩] none tree
    let second := redirectImports ⟨"/dist/@kiln/core"⟩ [⟨"a.d.ts"⟩] none first.2
    redirect ⟨"/dist/@kiln/core"⟩ ⟨"/dist/a.d.ts"⟩ old = new ∧
      redirect ⟨"/dist/@kiln/core"⟩ ⟨"/dist/a.d.ts"⟩ new = new ∧
      pending ⟨"/dist/@kiln/core"⟩ tree [⟨"a.d.ts"⟩] = [⟨⟨"/dist/a.d.ts"⟩, new, .always⟩] ∧
      readAndRedirect ⟨"/dist/@kiln/core"⟩ first.2 ⟨"a.d.ts"⟩ = .ok .unchanged ∧
      ∃ report, second.1 = .ok report ∧ report.changed = [] ∧ report.unchanged = 1 := by
  intro old new tree first second
  have hspot : tree.spotOf false ⟨"/dist/a.d.ts"⟩ = .ok (.found ["dist", "a.d.ts"]) := by
    have hsteps : stepsOf "/dist/a.d.ts".toList = [.name "dist", .name "a.d.ts"] := by decide
    exact spotOf_eq_found_iff.mpr ⟨checkPath_eq_ok (by decide) (by decide) (by decide),
      hsteps ▸ .directory (by decide) rfl (.file (by decide) rfl)⟩
  have hread : tree.readText ⟨"/dist/a.d.ts"⟩ = .ok old := readText_of_lookup hspot rfl
  have hplace : Path.absolute? ⟨"a.d.ts"⟩ tree.workPath = some ⟨"/dist/a.d.ts"⟩ := by decide
  have hnew : redirect ⟨"/dist/@kiln/core"⟩ ⟨"/dist/a.d.ts"⟩ old = new := by decide +kernel
  have hchanged : readAndRedirect ⟨"/dist/@kiln/core"⟩ tree ⟨"a.d.ts"⟩ =
      .ok (.changed ⟨⟨"/dist/a.d.ts"⟩, new, .always⟩) :=
    readAndRedirect_eq_changed_iff.mpr
      ⟨_, old, hplace, hread, by rw [hnew]; decide, by rw [hnew]⟩
  have hpending : pending ⟨"/dist/@kiln/core"⟩ tree [⟨"a.d.ts"⟩] =
      [⟨⟨"/dist/a.d.ts"⟩, new, .always⟩] := by
    simp [pending, pendingFiles, readings, hchanged]
  have hquotes : HasNoQuotes (typingsSpecifier ⟨"/dist/@kiln/core"⟩ ⟨"/dist/a.d.ts"⟩) := by
    decide +kernel
  have hfirst : RedirectsTo ⟨"/dist/@kiln/core"⟩ [⟨"a.d.ts"⟩] none tree first.1 first.2 :=
    redirectsTo_redirectImports _ _ none tree
  have hall := hfirst.allUndisturbed (by simpa [hpending] using hquotes)
  obtain ⟨text, htext⟩ := hfirst.exists_readText ⟨old, hread⟩
  obtain ⟨hidempotent, hcalls⟩ := redirectImports_again ⟨"/dist/@kiln/core"⟩
  obtain ⟨hunchanged, hreports⟩ := hcalls _ _ _ _ _ hfirst
  have hsecond := redirectsTo_redirectImports ⟨"/dist/@kiln/core"⟩ [⟨"a.d.ts"⟩] none first.2
  obtain ⟨report, hreport⟩ := hsecond.exists_report (by simp)
  rw [hreport] at hsecond
  obtain ⟨hnone, hcount⟩ := hreports hall none report _ hsecond
  have hdeclaration : declaration? tree ⟨"a.d.ts"⟩ = some ⟨⟨"/dist/a.d.ts"⟩, old⟩ :=
    declaration?_eq_some_iff.mpr ⟨hplace, readText_eq_ok_iff.mp hread⟩
  refine ⟨hnew, ?_, hpending, ?_, report, hreport, hnone, ?_⟩
  · have htwice := hidempotent ⟨"/dist/a.d.ts"⟩ hquotes old
    rwa [hnew] at htwice
  · exact hunchanged _ (by simp) _ hplace (hall _ (by simp) _ text hplace htext)
  · simp [hcount, declarations, hdeclaration]

end WebComponents.Commands
