import WebComponents.Proofs.Commands.Redirection
import WebComponents.Proofs.Files.Linkless
import WebComponents.Proofs.Typings.Resolving

/-!
# Declarations that are self-contained

Redirecting imports puts a specifier into the declaration files, and apart from that it copies the
typings.  The two meet (`redirectImports_selfContained`): whoever reads the specifier in the
directory of the file comes to the copy, and the copy has the text of the typings as they are in the
end.  Only where the way to the copy goes along a name that is no text, the specifier cannot tell it
and leads elsewhere, and then the call reports success all the same
(`not_selfContained_stray`).

Files that are spelled in several ways are written several times.  Without links they get one text
(`Redirected.readText_eq`), since the specifier depends on the clean form of the directory alone.
-/

namespace WebComponents.Commands

open Files Files.FileTree Report Typings

variable {typesDir path typings : Path} {files : List Path} {tree written final : FileTree}
  {file : GeneratedFile} {content : String} {report : RedirectReport} {strays : Text.Strays}

theorem redirect_congr {other : Path}
    (h : Path.cleanSegments path.directory.segments = Path.cleanSegments other.directory.segments)
    (content : String) (strays : Text.Strays) :
    redirect typesDir path content strays = redirect typesDir other content strays := by
  have hspecifier : typingsSpecifier typesDir path strays =
      typingsSpecifier typesDir other strays := by
    unfold typingsSpecifier Path.relative
    rw [h]
  unfold redirect
  rw [hspecifier]

/-- Without links every pending file has its new text, also if it was written under several paths.
-/
theorem Redirected.readText_eq (h : Redirected typesDir files tree written strays)
    (hlinks : tree.HasNoLinks) (hfile : file ∈ pending typesDir tree files strays) :
    written.readText file.path = .ok file.content := by
  obtain ⟨_, habsolute, content, hread, hcontent, _⟩ := exists_of_mem_pending hfile
  obtain ⟨location, bytes, hspot, hbytes, htext⟩ := readText_eq_ok_iff.mp hread
  obtain ⟨other, hother, hspot', old, bytes', hbytes', hold, _, hnew, hlookup⟩ :=
    exists_of_renewed (h.renewed file hfile location hspot)
  obtain ⟨_, habsolute', _⟩ := exists_of_mem_pending hother
  have hsame : other.content = file.content := by
    cases hbytes.symm.trans hbytes'
    cases htext.symm.trans hold
    have hdirectory := cleanSegments_directory_eq hlinks habsolute' habsolute hspot' hspot hbytes
    rw [hnew, hcontent, redirect_congr hdirectory]
  exact hsame ▸ readText_of_lookup (h.sameShape.spotOf_eq.trans hspot) hlookup

/-- A call that reports no failure has copied the typings. -/
theorem RedirectsTo.exists_copy
    (h : RedirectsTo typesDir files (some typings) tree (.ok report) final strays)
    (hsuccess : report.isSuccess = true) :
    ∃ written content, Redirected typesDir files tree written strays ∧
      written.readText typings = .ok content ∧
      (typingsCopy typesDir content).write written = (.ok .written, final) ∧
      report.changed = (pending typesDir tree files strays).map (·.path) ∧
      report.typings? = some (typingsPath typesDir) := by
  obtain ⟨written, hwritten, hend⟩ := h.cases
  rcases hend with ⟨hnone, _⟩ | ⟨_, _, _, _, hreport, _⟩ |
    ⟨_, content, copied, hsome, hread, hcopy, hreport⟩
  · cases hnone
  · cases hreport
  · cases hsome
    cases hreport
    rcases exists_of_write rfl hcopy with ⟨⟨problem, rfl⟩, _⟩ | ⟨rfl, _⟩
    · simp [RedirectReport.isSuccess, reportOf, failedFiles] at hsuccess
    · exact ⟨written, content, hwritten, hread, hcopy, rfl, rfl⟩

/-- A call reports no failure if all files can be read and the copy goes to a free place in a
directory that is there. -/
theorem RedirectsTo.exists_success {result : Except Problem RedirectReport} {above : Path}
    {directory : Location} {name : String}
    (h : RedirectsTo typesDir files (some typings) tree result final strays)
    (hfiles : ∀ path ∈ files, ∃ reading, readAndRedirect typesDir tree path strays = .ok reading)
    (htypings : ∃ text, tree.readText typings = .ok text)
    (hparent : (typingsPath typesDir).parent? = some above)
    (habove : tree.isDirectory above = true)
    (hfree : tree.spotOf true (typingsPath typesDir) = .ok (.vacant directory name)) :
    ∃ report, result = .ok report ∧ report.isSuccess = true := by
  obtain ⟨written, hwritten, hend⟩ := h.cases
  obtain ⟨text, hread⟩ := (hwritten.exists_readText_iff typings).mpr htypings
  have hreadable : unreadable (readings typesDir tree files strays) = [] := by
    refine List.filterMap_eq_nil_iff.mpr fun reading hreading => ?_
    obtain ⟨path, hpath, rfl⟩ := List.mem_map.mp hreading
    obtain ⟨_, hread⟩ := hfiles path hpath
    simp only [hread]
  rcases hend with ⟨hnone, _⟩ | ⟨_, cause, hsome, hcause, _⟩ |
    ⟨_, content, copied, hsome, _, hcopy, hresult⟩
  · cases hnone
  · cases hsome
    cases hread.symm.trans hcause
  · have hspot := hwritten.sameShape.spotOf_eq.trans hfree
    have hdirectory := hwritten.sameShape.isDirectory_eq.trans habove
    have hwrite := @write_of_vacant _ (typingsCopy typesDir content) _ _ _ rfl hparent hdirectory
      hspot
    cases hwrite.symm.trans hcopy
    refine ⟨_, hresult, ?_⟩
    simp [RedirectReport.isSuccess, reportOf, hreadable, failedFiles]

/-- A call for one file that gets a new text lists it and the copy and reports no failure, if the
typings can be read and their copy goes to a free place in a directory that is there. -/
theorem exists_report_of_changed {above : Path} {directory : Location} {name : String}
    (hchanged : readAndRedirect typesDir tree path strays = .ok (.changed file))
    (htypings : ∃ text, tree.readText typings = .ok text)
    (hparent : (typingsPath typesDir).parent? = some above)
    (habove : tree.isDirectory above = true)
    (hfree : tree.spotOf true (typingsPath typesDir) = .ok (.vacant directory name)) :
    ∃ report, (redirectImports typesDir [path] (some typings) tree strays).1 = .ok report ∧
      report.isSuccess = true ∧ report.changed = [file.path] ∧
      report.typings? = some (typingsPath typesDir) := by
  have hrun := redirectsTo_redirectImports typesDir [path] (some typings) tree strays
  obtain ⟨report, hreport, hsuccess⟩ := hrun.exists_success
    (by simp [hchanged]) htypings hparent habove hfree
  rw [hreport] at hrun
  obtain ⟨_, _, _, _, _, hlisted, hcopy⟩ := hrun.exists_copy hsuccess
  exact ⟨report, hreport, hsuccess,
    by simp [hlisted, pending, pendingFiles, readings, hchanged], hcopy⟩

/-- The declaration file with the given text has imports of the framework, and now they all have the
specifier of the typings. -/
structure HoldsSpecifier (strays : Text.Strays) (typesDir : Path) (final : FileTree) (path : Path)
    (content : String) : Prop where
  imports : ∃ gap opening internal closing,
    Piece.framework gap opening internal closing ∈ pieces content.toList
  redirected : (redirect typesDir path content strays).toList = (pieces content.toList).flatMap
    (·.charsWith fun _ => (typingsSpecifier typesDir path strays).toList)
  /-- The typings may have been copied over the file itself. -/
  holds : final.readText path = .ok (redirect typesDir path content strays) ∨
    final.spotOf false path = final.spotOf false (typingsPath typesDir)

/-- **Self-contained declarations.**  Without links, and with a clean directory of the types whose
path has no backslash, a call that reports no failure leaves declarations with the specifier of the
typings and a copy of these.  The specifier leads to the copy exactly if the names on the way are
texts. -/
theorem redirectImports_selfContained (hlinks : tree.HasNoLinks)
    (htypes : typesDir.isAbsolute = true) (hclean : typesDir.clean.Same typesDir)
    (hbackslash : '\\' ∉ typesDir.text.toList)
    (hrun : RedirectsTo typesDir files (some typings) tree (.ok report) final strays)
    (hsuccess : report.isSuccess = true) :
    report.typings? = some (typingsPath typesDir) ∧
      (∃ content, final.readText typings = .ok content ∧
        final.readText (typingsPath typesDir) = .ok content) ∧
      ∀ path ∈ report.changed,
        (∃ content, tree.readText path = .ok content ∧
          HoldsSpecifier strays typesDir final path content) ∧
        (LeadsToTypings strays typesDir path ↔ HasTextWay strays typesDir path) := by
  obtain ⟨written, text, hwritten, hread, hcopy, hchanged, htypings⟩ := hrun.exists_copy hsuccess
  have hsource : final.readText typings = .ok text := by
    rcases readText_of_write_or rfl hcopy hread with hkept | ⟨_, hnew⟩
    · exact hkept
    · exact hnew
  have hcopied := readText_of_write rfl hcopy
  refine ⟨htypings, ⟨text, hsource, hcopied⟩, ?_⟩
  rw [hchanged]
  intro path hpath
  obtain ⟨file, hfile, rfl⟩ := List.mem_map.mp hpath
  obtain ⟨_, habsolute, content, hcontent, hnew, hne⟩ := exists_of_mem_pending hfile
  obtain ⟨location, bytes, hspot, hbytes, _⟩ := readText_eq_ok_iff.mp hcontent
  obtain ⟨hdirectory, _⟩ := exists_locationOf_eq habsolute hspot hbytes
  have hredirected := hwritten.readText_eq hlinks hfile
  rw [hnew] at hredirected hne
  refine ⟨⟨content, hcontent, ?_⟩, leadsToTypings_iff htypes hclean hbackslash hdirectory strays⟩
  exact
    { imports := exists_framework_of_redirect_ne hne
      redirected := toList_redirect typesDir file.path content strays
      holds := (readText_of_write_or rfl hcopy hredirected).imp_right And.left }

/-- A component's declaration, one directory below the types, in a home that is no text. -/
theorem redirectImports_selfContained_card :
    let strays := Text.Strays.latin1
    let text := "import { h } from '@kiln/core';\n"
    let tree : FileTree :=
      ⟨[(["ÿ"], .directory), (["ÿ", "types"], .directory), (["ÿ", "types", "card"], .directory),
        (["ÿ", "types", "card", "card.d.ts"], .file text.toUTF8),
        (["core.d.ts"], .file "export declare const h: any;\n".toUTF8)], []⟩
    let run := redirectImports ⟨"/ÿ/types"⟩ [⟨"/ÿ/types/card/card.d.ts"⟩] (some ⟨"/core.d.ts"⟩)
      tree strays
    ∃ report, run.1 = .ok report ∧ report.isSuccess = true ∧
      report.changed = [⟨"/ÿ/types/card/card.d.ts"⟩] ∧
      report.typings? = some ⟨"/ÿ/types/kiln-public-runtime.d.ts"⟩ ∧
      HoldsSpecifier strays ⟨"/ÿ/types"⟩ run.2 ⟨"/ÿ/types/card/card.d.ts"⟩ text ∧
      LeadsToTypings strays ⟨"/ÿ/types"⟩ ⟨"/ÿ/types/card/card.d.ts"⟩ := by
  intro strays text tree run
  have hlinks : tree.HasNoLinks := hasNoLinks_of_entries (by simp [tree])
  have hcard : tree.spotOf false ⟨"/ÿ/types/card/card.d.ts"⟩ =
      .ok (.found ["ÿ", "types", "card", "card.d.ts"]) := by
    have hsteps : stepsOf "/ÿ/types/card/card.d.ts".toList =
        [.name "ÿ", .name "types", .name "card", .name "card.d.ts"] := by decide
    refine spotOf_eq_found_iff.mpr
      ⟨checkPath_eq_ok (by decide) (by decide) (by decide), hsteps ▸ ?_⟩
    exact .directory (by decide) rfl (.directory (by decide) rfl
      (.directory (by decide) rfl (.file (by decide) rfl)))
  have htypings : tree.spotOf false ⟨"/core.d.ts"⟩ = .ok (.found ["core.d.ts"]) := by
    have hsteps : stepsOf "/core.d.ts".toList = [.name "core.d.ts"] := by decide
    exact spotOf_eq_found_iff.mpr ⟨checkPath_eq_ok (by decide) (by decide) (by decide),
      hsteps ▸ .file (by decide) rfl⟩
  have hfree : tree.spotOf true ⟨"/ÿ/types/kiln-public-runtime.d.ts"⟩ =
      .ok (.vacant ["ÿ", "types"] "kiln-public-runtime.d.ts") := by
    have hsteps : stepsOf "/ÿ/types/kiln-public-runtime.d.ts".toList =
        [.name "ÿ", .name "types", .name "kiln-public-runtime.d.ts"] := by decide
    rw [spotOf, checkPath_eq_ok (by decide) (by decide) (by decide), hsteps, walk]
    change tree.walk _ _ _ _ = _
    rw [walk]
    change tree.walk _ _ _ _ = _
    rw [walk]
    rfl
  have hdirectory : tree.isDirectory ⟨"/ÿ/types"⟩ = true := by
    have hsteps : stepsOf "/ÿ/types".toList = [.name "ÿ", .name "types"] := by decide
    refine isDirectory_iff.mpr ⟨["ÿ", "types"], spotOf_eq_found_iff.mpr
      ⟨checkPath_eq_ok (by decide) (by decide) (by decide), hsteps ▸ ?_⟩, rfl⟩
    exact .directory (by decide) rfl (.directory (by decide) rfl .arrived)
  have hchanged : readAndRedirect ⟨"/ÿ/types"⟩ tree ⟨"/ÿ/types/card/card.d.ts"⟩ strays =
      .ok (.changed ⟨⟨"/ÿ/types/card/card.d.ts"⟩,
        redirect ⟨"/ÿ/types"⟩ ⟨"/ÿ/types/card/card.d.ts"⟩ text strays, .always⟩) :=
    readAndRedirect_eq_changed_iff.mpr
      ⟨_, text, by decide, readText_of_lookup hcard rfl, by decide +kernel, rfl⟩
  have hpath : typingsPath ⟨"/ÿ/types"⟩ = ⟨"/ÿ/types/kiln-public-runtime.d.ts"⟩ := by decide
  obtain ⟨report, hreport, hsuccess, hlisted, _⟩ := exists_report_of_changed hchanged
    ⟨_, readText_of_lookup htypings rfl⟩ (by decide) hdirectory (hpath ▸ hfree)
  have hrun := redirectsTo_redirectImports ⟨"/ÿ/types"⟩ [⟨"/ÿ/types/card/card.d.ts"⟩]
    (some ⟨"/core.d.ts"⟩) tree strays
  rw [hreport] at hrun
  obtain ⟨hcopy, _, hfiles⟩ := redirectImports_selfContained hlinks (by decide) (by decide)
    (by decide) hrun hsuccess
  obtain ⟨⟨_, hcontent, hholds⟩, hleads⟩ := hfiles ⟨"/ÿ/types/card/card.d.ts"⟩ (by simp [hlisted])
  cases hcontent.symm.trans (readText_of_lookup hcard rfl)
  -- the name that is no text is shared, so the way does not go along it
  have hway : HasTextWay strays ⟨"/ÿ/types"⟩ ⟨"/ÿ/types/card/card.d.ts"⟩ := by
    have hback : Path.wayBetween
        (Path.cleanSegments (Path.mk "/ÿ/types/card/card.d.ts").directory.segments)
        (Path.cleanSegments (Path.mk "/ÿ/types").segments) = [.parent] := by decide
    intro name hname
    simp [hback] at hname
  exact ⟨report, hreport, hsuccess, hlisted, hcopy.trans (congrArg some hpath), hholds,
    hleads.mpr hway⟩

/-- The types go to a directory with a name that is no text, next to the declaration file. -/
theorem not_selfContained_stray :
    let strays := Text.Strays.latin1
    let text := "import { h } from '@kiln/core';\n"
    let typesDir : Path := ⟨"/dist/ÿ"⟩
    let tree : FileTree :=
      ⟨[(["dist"], .directory), (["dist", "ÿ"], .directory),
        (["dist", "a.d.ts"], .file text.toUTF8),
        (["core.d.ts"], .file "export declare const h: any;\n".toUTF8)], []⟩
    let run := redirectImports typesDir [⟨"/dist/a.d.ts"⟩] (some ⟨"/core.d.ts"⟩) tree strays
    tree.HasNoLinks ∧ typesDir.isAbsolute = true ∧ typesDir.clean.Same typesDir ∧
      '\\' ∉ typesDir.text.toList ∧ (Path.mk "/dist/a.d.ts").isAbsolute = true ∧
      redirect typesDir ⟨"/dist/a.d.ts"⟩ text strays =
        "import { h } from './\uFFFD/kiln-public-runtime';\n" ∧
      (∃ report, run.1 = .ok report ∧ report.isSuccess = true ∧
        report.changed = [⟨"/dist/a.d.ts"⟩] ∧ report.typings? = some (typingsPath typesDir)) ∧
      ¬ LeadsToTypings strays typesDir ⟨"/dist/a.d.ts"⟩ := by
  intro strays text typesDir tree run
  have hlinks : tree.HasNoLinks := hasNoLinks_of_entries (by simp [tree])
  have hfile : tree.spotOf false ⟨"/dist/a.d.ts"⟩ = .ok (.found ["dist", "a.d.ts"]) := by
    have hsteps : stepsOf "/dist/a.d.ts".toList = [.name "dist", .name "a.d.ts"] := by decide
    exact spotOf_eq_found_iff.mpr ⟨checkPath_eq_ok (by decide) (by decide) (by decide),
      hsteps ▸ .directory (by decide) rfl (.file (by decide) rfl)⟩
  have htypings : tree.spotOf false ⟨"/core.d.ts"⟩ = .ok (.found ["core.d.ts"]) := by
    have hsteps : stepsOf "/core.d.ts".toList = [.name "core.d.ts"] := by decide
    exact spotOf_eq_found_iff.mpr ⟨checkPath_eq_ok (by decide) (by decide) (by decide),
      hsteps ▸ .file (by decide) rfl⟩
  have hfree : tree.spotOf true ⟨"/dist/ÿ/kiln-public-runtime.d.ts"⟩ =
      .ok (.vacant ["dist", "ÿ"] "kiln-public-runtime.d.ts") := by
    have hsteps : stepsOf "/dist/ÿ/kiln-public-runtime.d.ts".toList =
        [.name "dist", .name "ÿ", .name "kiln-public-runtime.d.ts"] := by decide
    rw [spotOf, checkPath_eq_ok (by decide) (by decide) (by decide), hsteps, walk]
    change tree.walk _ _ _ _ = _
    rw [walk]
    change tree.walk _ _ _ _ = _
    rw [walk]
    rfl
  have hdirectory : tree.isDirectory ⟨"/dist/ÿ"⟩ = true := by
    have hsteps : stepsOf "/dist/ÿ".toList = [.name "dist", .name "ÿ"] := by decide
    refine isDirectory_iff.mpr ⟨["dist", "ÿ"], spotOf_eq_found_iff.mpr
      ⟨checkPath_eq_ok (by decide) (by decide) (by decide), hsteps ▸ ?_⟩, rfl⟩
    exact .directory (by decide) rfl (.directory (by decide) rfl .arrived)
  have hnew : redirect typesDir ⟨"/dist/a.d.ts"⟩ text strays =
      "import { h } from './\uFFFD/kiln-public-runtime';\n" := by decide +kernel
  have hchanged : readAndRedirect typesDir tree ⟨"/dist/a.d.ts"⟩ strays =
      .ok (.changed ⟨⟨"/dist/a.d.ts"⟩, redirect typesDir ⟨"/dist/a.d.ts"⟩ text strays, .always⟩) :=
    readAndRedirect_eq_changed_iff.mpr
      ⟨_, text, by decide, readText_of_lookup hfile rfl, by rw [hnew]; decide +kernel, rfl⟩
  have hpath : typingsPath typesDir = ⟨"/dist/ÿ/kiln-public-runtime.d.ts"⟩ := by decide
  have hparent : (typingsPath typesDir).parent? = some typesDir := by decide
  have hreport := exists_report_of_changed hchanged ⟨_, readText_of_lookup htypings rfl⟩ hparent
    hdirectory (hpath ▸ hfree)
  have habsolute : typesDir.isAbsolute = true := by decide
  have hclean : typesDir.clean.Same typesDir := by decide
  have hbackslash : '\\' ∉ typesDir.text.toList := by decide
  have hleads : LeadsToTypings strays typesDir ⟨"/dist/a.d.ts"⟩ ↔
      HasTextWay strays typesDir ⟨"/dist/a.d.ts"⟩ :=
    leadsToTypings_iff habsolute hclean hbackslash (by decide) strays
  refine ⟨hlinks, habsolute, hclean, hbackslash, by decide, hnew, hreport, fun h => ?_⟩
  -- the one name on the way is the stray
  have hway : Path.wayBetween
      (Path.cleanSegments (Path.mk "/dist/a.d.ts").directory.segments)
      (Path.cleanSegments typesDir.segments) = [.name "ÿ"] := by decide
  have hstray := hleads.mp h "ÿ" (by simp [hway]) 'ÿ' (by decide)
  cases hstray

end WebComponents.Commands
