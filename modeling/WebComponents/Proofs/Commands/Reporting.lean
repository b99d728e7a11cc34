import WebComponents.Proofs.Commands.Generation
import WebComponents.Proofs.Files.Making
import WebComponents.Proofs.Scaffold.Layout

/-!
# The report on a generated component tells what happened

In a tree of directories and regular files a call has one of three ends, and the tree at the start
says which (`generate_tells`):

```text
refused    the path of the source directory has a NUL, or a file is where a directory has to be
existing   there is something at the place of a planned file
written    there is nothing at any of these places
```

Making directories adds directories on the way to planned directories only, and no planned file has
its place there, so the second look at the planned paths finds what was there at the start
(`existingFiles_eq`).  After that nothing can fail: every file has its directory and a name that the
system takes (`fate_plannedFile`), and the files do not meet, so each comes to its own end in every
order.
-/

namespace WebComponents.Commands

open Files Files.FileTree Report Scaffold

variable {tree made final : FileTree} {plan : Plan} {kind : FileKind} {root sourceDir : Path}
  {shown : String} {directories : List Path} {result : Except Problem GenerateReport}

/-! ## Making all directories -/

/-- What comes of making directories one after the other. -/
structure MakesAll (tree : FileTree) (directories : List Path)
    (run : Except Problem Unit × FileTree) : Prop where
  ok_iff : run.1 = .ok () ↔
    ∀ directory ∈ directories, tree.barrier? [] (locationOf directory) = none
  isGrounded : run.2.IsGrounded
  adds : tree.Adds (· = .directory) run.2
  lookup_eq_or : ∀ location, run.2.lookup location = tree.lookup location ∨
    ∃ directory ∈ directories, location <+: locationOf directory

theorem makesAll_makeAll (hground : tree.IsGrounded)
    (h : ∀ directory ∈ directories, IsPlain directory ∧ checkPath directory = .ok ()) :
    MakesAll tree directories (makeAll tree directories) := by
  induction directories generalizing tree with
  | nil => exact ⟨by simp [makeAll], hground, Adds.refl _ tree, fun _ => Or.inl rfl⟩
  | cons directory directories ih =>
      obtain ⟨⟨hplain, hcheck⟩, hrest⟩ := List.forall_mem_cons.mp h
      have hfirst := makes_createDirectories hground hplain hcheck
      have hmaking := hfirst.result_eq
      unfold makeAll
      split
      · rename_i between hbetween
        rw [hbetween] at hfirst hmaking
        have hopen := making_eq_ok_iff.mp hmaking.symm
        have hnext := ih hfirst.isGrounded hrest
        refine ⟨?_, hnext.isGrounded, hfirst.adds.trans hnext.adds, fun location => ?_⟩
        · -- the directories that were made are no barriers for the next ones
          rw [hnext.ok_iff, List.forall_mem_cons]
          simp only [hfirst.adds.barrier?_eq, hopen, true_and]
        · rcases hnext.lookup_eq_or location with heq | ⟨other, hother, hwithin⟩
          · rw [heq]
            exact (hfirst.lookup_eq_or location).imp_right fun hwithin =>
              ⟨directory, List.mem_cons_self, hwithin⟩
          · exact Or.inr ⟨other, List.mem_cons_of_mem _ hother, hwithin⟩
      · rename_i cause between hbetween
        rw [hbetween] at hfirst hmaking
        refine ⟨iff_of_false (by simp) fun hopen => ?_, hfirst.isGrounded, hfirst.adds,
          fun location => ?_⟩
        · rw [making_eq_ok_iff.mpr (hopen directory List.mem_cons_self)] at hmaking
          cases hmaking
        · exact (hfirst.lookup_eq_or location).imp_right fun hwithin =>
            ⟨directory, List.mem_cons_self, hwithin⟩

/-- A regular file is where a directory of the plan has to be, or above it. -/
def IsBlocked (tree : FileTree) (plan : Plan) : Prop :=
  ∃ directory ∈ plan.directories, ∃ location, location <+: locationOf directory ∧
    ∃ content, tree.lookup location = some (.file content)

theorem makesAll_createPlanned (hground : tree.IsGrounded) (hfits : plan.Fits) :
    MakesAll tree plan.directories (createPlanned plan tree) := by
  refine makesAll_makeAll hground fun directory hdirectory => ?_
  obtain ⟨kind, hkind, rfl⟩ := hfits.exists_of_mem_directories hdirectory
  exact ⟨hfits.isPlain_directoryOf kind, hfits.checkPath_directoryOf hkind⟩

/-- The directories can be made unless a file is in the way. -/
theorem createPlanned_eq_ok_iff (hground : tree.IsGrounded) (hfits : plan.Fits) :
    (createPlanned plan tree).1 = .ok () ↔ ¬ IsBlocked tree plan := by
  rw [(makesAll_createPlanned hground hfits).ok_iff]
  have hbarrier {directory : Path} (hdirectory : directory ∈ plan.directories) :
      tree.barrier? [] (locationOf directory) = none ↔
        ∀ location, location <+: locationOf directory →
          ∀ content, tree.lookup location ≠ some (.file content) := by
    obtain ⟨kind, hkind, rfl⟩ := hfits.exists_of_mem_directories hdirectory
    exact barrier?_eq_none_iff nofun (hfits.isShort_directoryOf hkind)
  constructor
  · rintro hopen ⟨directory, hdirectory, location, hwithin, content, hfile⟩
    exact (hbarrier hdirectory).mp (hopen directory hdirectory) location hwithin content hfile
  · intro hfree directory hdirectory
    refine (hbarrier hdirectory).mpr fun location hwithin content hfile => ?_
    exact hfree ⟨directory, hdirectory, location, hwithin, content, hfile⟩

/-- No directory is made for a path with a NUL. -/
theorem createPlanned_of_nul (hplaced : plan.IsPlaced)
    (hnul : '\x00' ∈ plan.directory.text.toList) (tree : FileTree) :
    createPlanned plan tree =
      (.error ⟨.createDirectory, plan.directory, .nulCharacter⟩, tree) := by
  have hne := hplaced.isPlain.ne_empty
  have hcheck : checkPath plan.directory = .error .nulCharacter := by
    rw [checkPath, if_neg hne, if_pos (by simpa [String.contains_char_eq] using hnul)]
  unfold createPlanned Plan.directories
  rw [makeAll, createDirectories_of_checkPath hne hcheck]

/-! ## Looking for the files -/

/-- The planned paths at whose place something is. -/
def takenPaths (plan : Plan) (tree : FileTree) : List Path :=
  (plan.files.map (·.2)).filter fun path => (tree.lookup (locationOf path)).isSome

theorem forall_mem_files {p : FileKind × Path → Prop}
    (h : ∀ kind ∈ plan.kinds, p (kind, plan.path kind)) : ∀ file ∈ plan.files, p file :=
  List.forall_mem_map.mpr h

section Made

variable (hfits : plan.Fits) (hmakes : MakesAll tree plan.directories (.ok (), made))

include hfits hmakes

/-- Making the directories changes nothing at the place of a planned file. -/
theorem lookup_path_of_makesAll (kind : FileKind) :
    made.lookup (locationOf (plan.path kind)) = tree.lookup (locationOf (plan.path kind)) := by
  refine (hmakes.lookup_eq_or _).resolve_right ?_
  rintro ⟨directory, hdirectory, hwithin⟩
  obtain ⟨other, _, rfl⟩ := hfits.exists_of_mem_directories hdirectory
  exact hfits.not_prefix_directoryOf kind other hwithin

theorem holds_path_iff (hkind : kind ∈ plan.kinds) :
    made.holds (plan.path kind) = true ↔
      (tree.lookup (locationOf (plan.path kind))).isSome = true := by
  rw [← lookup_path_of_makesAll hfits hmakes kind]
  exact holds_iff_lookup hmakes.isGrounded (hfits.isPlain_path kind)
    (hfits.checkPath_path kind hkind) (hfits.isShort_path kind hkind) (hfits.stepsOf_path kind)

/-- The second look finds what was there before the directories were made. -/
theorem existingFiles_eq : existingFiles plan made = takenPaths plan tree :=
  List.filter_congr (List.forall_mem_map.mpr (forall_mem_files fun _ hkind =>
    Bool.eq_iff_iff.mpr (holds_path_iff hfits hmakes hkind)))

/-! ## Writing the files -/

/-- The directory of a planned file is there when the files are written. -/
theorem makingError?_path (hkind : kind ∈ plan.kinds) :
    makingError? made (plan.path kind) = none := by
  cases hparent : (plan.path kind).parent? with
  | none => rw [makingError?, hparent]
  | some above =>
      obtain ⟨hne, _, last, habove⟩ := (hfits.isPlain_path kind).parent hparent
      have hcheck := checkPath_parent hparent hne (hfits.checkPath_path kind hkind)
      -- the parent may have another spelling than the directory of the file, but not another place
      have hsame : locationOf above = locationOf (plan.directoryOf kind) :=
        (List.append_inj' (habove.symm.trans (hfits.locationOf_path kind)) rfl).1
      rw [makingError?_of_parent hparent hcheck, hsame, hmakes.adds.barrier?_eq]
      exact hmakes.ok_iff.mp rfl _ (Plan.directoryOf_mem hkind)

/-- A planned file is written where nothing is at its place. -/
theorem fate_plannedFile (hkind : kind ∈ plan.kinds)
    (hfree : tree.lookup (locationOf (plan.path kind)) = none) :
    fate made (plannedFile plan kind) = .ok .written := by
  have hlast : (stepsOf (plan.path kind).text.toList).getLast? =
      some (.name (plan.fileName kind)) := by
    rw [hfits.stepsOf_path, (hfits.isPlain_path kind).entrySteps_eq, hfits.locationOf_path,
      List.map_append]
    exact List.getLast?_concat
  have hnone : made.lookup (locationOf (plan.path kind)) ≠ some .directory := by
    simp [lookup_path_of_makesAll hfits hmakes, hfree]
  have hpassed : ¬ IsSkipped made (plannedFile plan kind) := by
    rintro ⟨_, hholds⟩
    have hsome := (holds_path_iff hfits hmakes hkind).mp hholds
    simp [hfree] at hsome
  exact fate_of_written hpassed (makingError?_path hfits hmakes hkind)
    (contentError?_eq_none (hfits.checkPath_path kind hkind) hlast (hfits.isShort_fileName hkind)
      hnone)

end Made

theorem resultOf_of_written {outcomes : List WriteOutcome}
    (h : ∀ outcome ∈ outcomes, outcome.result = .ok .written) (root : Path) :
    resultOf root outcomes = .written (outcomes.map fun outcome => root.relative outcome.path) := by
  have hnone : outcomes.filterMap (failureOf? root) = [] := by
    refine List.filterMap_eq_nil_iff.mpr fun outcome houtcome => ?_
    rw [failureOf?, h outcome houtcome]
  have hall : outcomes.filter (·.isWritten) = outcomes := by
    refine List.filter_eq_self.mpr fun outcome houtcome => ?_
    rw [WriteOutcome.isWritten, h outcome houtcome]
  unfold resultOf
  simp only [hnone, hall, List.isEmpty_nil, ↓reduceIte]

/-! ## What a call tells -/

/-- The same regular files with the same content, but for those at new places. -/
def KeepsFiles (tree final : FileTree) (places : List Location) : Prop :=
  ∀ location, location ∉ places → ∀ content,
    final.lookup location = some (.file content) ↔ tree.lookup location = some (.file content)

theorem keepsFiles_of_adds (h : tree.Adds (· = .directory) made) (places : List Location) :
    KeepsFiles tree made places := by
  intro location _ content
  exact ⟨fun hfile => h.lookup_of_not_new hfile (by simp), h.lookup_of_some⟩

theorem KeepsFiles.trans {places : List Location} (h : KeepsFiles tree made places)
    (h' : KeepsFiles made final places) : KeepsFiles tree final places :=
  fun location hplaces content =>
    (h' location hplaces content).trans (h location hplaces content)

/-- A batch changes no regular file but those that it writes. -/
theorem keepsFiles_of_grown {files : List GeneratedFile} (h : Grown made files final) :
    KeepsFiles made final (files.map fun file => locationOf file.path) := by
  intro location hplaces content
  rcases h.lookup_eq location with heq | ⟨file, hfile, entry, hdue, hnew⟩
  · rw [heq]
  · cases hdue with
    | directory _ _ _ _ _ hfree => simp [hfree, hnew]
    | content _ => exact absurd (List.mem_map_of_mem hfile) hplaces

/-- The source directory cannot be named to the system, or a file is in the way. -/
def IsRefused (sourceDir : Path) (plan : Plan) (tree : FileTree) : Prop :=
  '\x00' ∈ sourceDir.text.toList ∨ IsBlocked tree plan

/-- The three ends of a call, each with what it says about the tree before and after it. -/
inductive Tells (sourceDir : Path) (plan : Plan) (shown : String) (root : Path) (tree : FileTree) :
    Except Problem GenerateReport → FileTree → Prop
  | refused {problem : Problem} {final : FileTree} (hrefused : IsRefused sourceDir plan tree)
      (hkept : KeepsFiles tree final []) :
      Tells sourceDir plan shown root tree (.error problem) final
  | existing {final : FileTree} (hpassed : ¬ IsRefused sourceDir plan tree)
      (htaken : takenPaths plan tree ≠ []) (hkept : KeepsFiles tree final []) :
      Tells sourceDir plan shown root tree
        (.ok ⟨shown, .existing ((takenPaths plan tree).map root.relative)⟩) final
  | written {final : FileTree} (hpassed : ¬ IsRefused sourceDir plan tree)
      (hfree : ∀ file ∈ plan.files, tree.lookup (locationOf file.2) = none)
      (hwritten : ∀ file ∈ plan.files, final.lookup (locationOf file.2) =
        some (.file (boilerplate plan.tag file.1 plan.withStylesheet).toUTF8))
      (hread : ∀ file ∈ plan.files,
        final.readText file.2 = .ok (boilerplate plan.tag file.1 plan.withStylesheet))
      (hkept : KeepsFiles tree final (plan.files.map fun file => locationOf file.2)) :
      Tells sourceDir plan shown root tree
        (.ok ⟨shown, .written (plan.files.map fun file => root.relative file.2)⟩) final

variable {outcomes : List WriteOutcome}

/-- Where no planned file is there, all of them are written. -/
theorem tells_of_runsTo (hfits : plan.Fits)
    (hmakes : MakesAll tree plan.directories (.ok (), made))
    (hpassed : ¬ IsRefused sourceDir plan tree) (hnone : takenPaths plan tree = [])
    (hruns : RunsTo made (plannedFiles plan) outcomes final) (shown : String) (root : Path) :
    Tells sourceDir plan shown root tree (.ok ⟨shown, resultOf root outcomes⟩) final := by
  have hfree : ∀ kind ∈ plan.kinds, tree.lookup (locationOf (plan.path kind)) = none := by
    intro kind hkind
    have hfilter := List.filter_eq_nil_iff.mp hnone (plan.path kind)
      (List.mem_map.mpr ⟨_, List.mem_map_of_mem hkind, rfl⟩)
    simpa using hfilter
  have hfate (kind : FileKind) (hkind : kind ∈ plan.kinds) :
      fate made (plannedFile plan kind) = .ok .written :=
    fate_plannedFile hfits hmakes hkind (hfree kind hkind)
  -- the files do not meet, so in every order each comes to what was decided before the first write
  obtain ⟨houtcomes, hgrown, hdue⟩ := hruns.eq_fate hmakes.isGrounded hfits.areApart
  have hall : outcomes = (plannedFiles plan).map fun file => ⟨file.path, .ok .written⟩ := by
    rw [houtcomes]
    refine List.map_congr_left (List.forall_mem_map.mpr fun kind hkind => ?_)
    rw [hfate kind hkind]
  have hresult : resultOf root outcomes =
      .written (plan.files.map fun file => root.relative file.2) := by
    rw [hall, resultOf_of_written (List.forall_mem_map.mpr fun _ _ => rfl), List.map_map,
      plannedFiles, Plan.files, List.map_map, List.map_map]
    rfl
  have hwritten (kind : FileKind) (hkind : kind ∈ plan.kinds) :
      final.lookup (locationOf (plan.path kind)) =
        some (.file (boilerplate plan.tag kind plan.withStylesheet).toUTF8) :=
    hdue _ (List.mem_map_of_mem hkind) _ _ (.content (hfate kind hkind))
  rw [hresult]
  refine .written hpassed (forall_mem_files hfree) (forall_mem_files hwritten)
    (forall_mem_files fun kind hkind => ?_) ?_
  · have hspot := spotOf_of_lookup hgrown.isGrounded (hfits.isPlain_path kind)
      (hfits.checkPath_path kind hkind) (hfits.isShort_path kind hkind) (hwritten kind hkind)
      (Or.inr (hfits.stepsOf_path kind))
    exact readText_of_lookup hspot (hwritten kind hkind)
  · have hplaces : (plannedFiles plan).map (fun file => locationOf file.path) =
        plan.files.map fun file => locationOf file.2 := by
      simp only [plannedFiles, Plan.files, List.map_map]
      rfl
    exact (keepsFiles_of_adds hmakes.adds _).trans (hplaces ▸ keepsFiles_of_grown hgrown)

theorem GeneratesTo.tells (h : GeneratesTo plan shown root tree result final)
    (hground : tree.IsGrounded) (hfits : plan.Fits) (hnul : '\x00' ∉ sourceDir.text.toList) :
    Tells sourceDir plan shown root tree result final := by
  have hmakes := makesAll_createPlanned hground hfits
  have hok := createPlanned_eq_ok_iff hground hfits
  have hrefused : IsRefused sourceDir plan tree ↔ IsBlocked tree plan := or_iff_right hnul
  unfold GeneratesTo at h
  split at h
  · -- directories that were made before the failure stay, and no file is touched
    rename_i problem made hrun
    rw [hrun] at hmakes hok
    obtain ⟨rfl, rfl⟩ := h
    refine .refused (hrefused.mpr ?_) (keepsFiles_of_adds hmakes.adds [])
    by_contra hfree
    cases hok.mpr hfree
  · rename_i made hrun
    rw [hrun] at hmakes hok
    have hpassed : ¬ IsRefused sourceDir plan tree := hrefused.not.mpr (hok.mp rfl)
    rw [existingFiles_eq hfits hmakes] at h
    split at h
    · rename_i hnone
      obtain ⟨outcomes, hruns, rfl⟩ := h
      exact tells_of_runsTo hfits hmakes hpassed (List.isEmpty_iff.mp hnone) hruns shown root
    · rename_i htaken
      obtain ⟨rfl, rfl⟩ := h
      exact .existing hpassed (by simpa using htaken) (keepsFiles_of_adds hmakes.adds [])

/-- **The report tells what happened.**  In a tree of directories and regular files, whichever order
the files are written in, a call is refused exactly if the source directory cannot be named or a
file is in the way, lists the planned paths that are taken if there are any, and otherwise lists all
planned paths, which now have their texts.  Nothing else is changed, and each listed path leads from
the root directory to the planned one. -/
theorem generate_tells (hclosed : tree.IsClosed) (hlinks : tree.HasNoLinks)
    (hplain : IsPlain sourceDir) (hroot : root.isAbsolute = true) {input : String}
    (hinput : '\x00' ∉ input.toList) {requested : List FileKind}
    (hlimits : (Plan.ofInput sourceDir input requested).IsWithinLimits) (shown : String) :
    let plan := Plan.ofInput sourceDir input requested
    GeneratesTo plan shown root tree (generate plan shown root tree).1
        (generate plan shown root tree).2 ∧
      (∀ result final, GeneratesTo plan shown root tree result final →
        Tells sourceDir plan shown root tree result final) ∧
      ∀ file ∈ plan.files, (root.resolve (root.relative file.2)).Same file.2 := by
  intro plan
  have hplaced : plan.IsPlaced := isPlaced_ofInput hplain input requested
  have hnul : '\x00' ∈ plan.directory.text.toList ↔ '\x00' ∈ sourceDir.text.toList :=
    nul_mem_componentDirectory_iff hinput
  refine ⟨generatesTo_generate plan shown root tree, fun result final h => ?_, ?_⟩
  · by_cases hsource : '\x00' ∈ sourceDir.text.toList
    · unfold GeneratesTo at h
      rw [createPlanned_of_nul hplaced (hnul.mpr hsource)] at h
      obtain ⟨rfl, rfl⟩ := h
      exact .refused (Or.inl hsource) (keepsFiles_of_adds (Adds.refl _ _) [])
    · have hfits := hplaced.fits hlimits (mt hnul.mp hsource) (notMem_componentTag hinput)
      exact h.tells (isGrounded_of_isClosed hclosed hlinks) hfits hsource
  · refine forall_mem_files fun kind _ => ?_
    have hpath := hplaced.isPlain_path kind
    exact (Path.same_resolve_relative hroot hpath.isAbsolute).trans hpath.same_clean

/-- A new component with a stylesheet, next to a file that stays. -/
theorem generate_tells_card :
    let tree : FileTree :=
      ⟨[(["src"], .directory), (["src", "main.ts"], .file "user".toUTF8)], []⟩
    ∀ result final,
      GeneratesTo (Plan.ofInput ⟨"/src"⟩ "my-card" [.stylesheet]) "my-card" ⟨"/src"⟩ tree
        result final →
      result = .ok ⟨"my-card", .written
        [⟨"components/my-card/my-card.tsx"⟩, ⟨"components/my-card/my-card.css"⟩]⟩ ∧
      final.readText ⟨"/src/components/my-card/my-card.tsx"⟩ =
        .ok (boilerplate "my-card" .component true) ∧
      final.lookup ["src", "main.ts"] = some (.file "user".toUTF8) := by
  intro tree result final hrun
  have hclosed : tree.IsClosed := by decide
  have hlinks : tree.HasNoLinks := hasNoLinks_of_entries (by simp [tree])
  have hplain : IsPlain ⟨"/src"⟩ := isPlain_of_clean (by decide) (by decide)
  have hlimits : (Plan.ofInput ⟨"/src"⟩ "my-card" [.stylesheet]).IsWithinLimits :=
    ⟨by decide, by decide⟩
  have hroot : (Path.mk "/src").isAbsolute = true := by decide
  have honly {location : Location} {content : ByteArray}
      (h : tree.lookup location = some (.file content)) : location = ["src", "main.ts"] := by
    simp only [lookup, lookupIn, tree] at h
    split at h
    · cases h
    split at h
    · cases h
    split at h
    · rename_i heq
      exact heq.symm
    · cases h
  have hdirectories : (Plan.ofInput ⟨"/src"⟩ "my-card" [.stylesheet]).directories =
      [⟨"/src/components/my-card"⟩] := by decide
  have htells := (generate_tells hclosed hlinks hplain hroot (by decide) hlimits
    "my-card").2.1 result final hrun
  cases htells with
  | refused hrefused =>
      rcases hrefused with hnul | ⟨directory, hdirectory, location, hwithin, content, hfile⟩
      · exact absurd hnul (by decide)
      · rw [hdirectories, List.mem_singleton] at hdirectory
        subst hdirectory
        rw [honly hfile] at hwithin
        exact absurd hwithin (by decide)
  | existing _ htaken => exact absurd (by decide) htaken
  | written _ _ _ hread hkept =>
      refine ⟨by decide, ?_, ?_⟩
      · exact hread (.component, ⟨"/src/components/my-card/my-card.tsx"⟩) (by decide)
      · exact (hkept _ (by decide) _).mpr rfl

/-- Without a file in the way, a source directory with a NUL in its path is refused. -/
theorem generate_refuses_nul :
    let tree : FileTree := ⟨[], []⟩
    let plan := Plan.ofInput ⟨"/a\x00b"⟩ "x-a" []
    tree.IsClosed ∧ tree.HasNoLinks ∧ IsPlain ⟨"/a\x00b"⟩ ∧ '\x00' ∉ "x-a".toList ∧
      plan.IsWithinLimits ∧ ¬ IsBlocked tree plan ∧
      ∃ problem, (generate plan "x-a" ⟨"/"⟩ tree).1 = .error problem := by
  intro tree plan
  have hplain : IsPlain ⟨"/a\x00b"⟩ := isPlain_of_clean (by decide) (by decide)
  have hempty {location : Location} {entry : Entry} (h : tree.lookup location = some entry) :
      entry = .directory := by
    simp only [lookup, lookupIn, tree] at h
    split at h
    · exact (Option.some_inj.mp h).symm
    · cases h
  refine ⟨by decide, fun _ _ hlink => ?_, hplain, by decide, ⟨by decide, by decide⟩, ?_, ?_⟩
  · cases hempty hlink
  · rintro ⟨_, _, _, _, _, hfile⟩
    cases hempty hfile
  · rw [generate, createPlanned_of_nul (isPlaced_ofInput hplain _ _) (by decide)]
    exact ⟨_, rfl⟩

end WebComponents.Commands
