import Mathlib.Data.List.Pairwise
import WebComponents.Proofs.Files.Branches
import WebComponents.Proofs.Files.Settling

/-!
# Batches whose files do not meet

The files of a batch may share directories.  If none of them lies at or below the place of another,
each comes to the same end as if it were written alone, in whichever order their steps are taken,
and the tree in the end is the same as well (`writeAll_confluent`).

What becomes of a file can be told from the tree at the start (`fate`), and so can what it adds
(`Due`).  A job relies on little: nobody else touches the place of its file, and directories stay
(`sharing`).  Others may make the directories that it needs, but never a file in their place, so it
meets the same barriers as before.

```text
/src/a/x.css     mkdir /src/a fails    mkdir /src fails: it is there     mkdir /src/a      write
/src/b.css                mkdir /src                    write
```
-/

namespace WebComponents.Files

open FileTree

/-! ## What becomes of a file -/

/-- Why the directories above a plain path cannot be made. -/
def makingError? (tree : FileTree) (path : Path) : Option SystemError :=
  match path.parent? with
  | none => none
  | some above =>
    match checkPath above with
    | .error error => some error
    | .ok _ => tree.barrier? [] (locationOf above)

/-- The file is there already and is to be created once. -/
def IsSkipped (tree : FileTree) (file : GeneratedFile) : Prop :=
  file.overwrite = .ifMissing ∧ tree.holds file.path = true

instance (tree : FileTree) (file : GeneratedFile) : Decidable (IsSkipped tree file) :=
  inferInstanceAs (Decidable (_ ∧ _))

/-- The result of a file with a plain path. -/
def fate (tree : FileTree) (file : GeneratedFile) : Except Problem WriteResult :=
  if IsSkipped tree file then .ok .skipped
  else
    match makingError? tree file.path with
    | some cause => .error ⟨.createDirectory, file.path.directory, cause⟩
    | none =>
      match tree.contentError? file.path with
      | some cause => .error ⟨.write, file.path, cause⟩
      | none => .ok .written

/-- What a file with a plain path adds: the missing directories above it, as far as no barrier
comes, and its content if nothing fails. -/
inductive Due (tree : FileTree) (file : GeneratedFile) : Location → Entry → Prop
  | directory {above : Path} {location : Location} (hpassed : ¬ IsSkipped tree file)
      (hparent : file.path.parent? = some above) (hcheck : checkPath above = .ok ())
      (hwithin : location <+: locationOf above) (hopen : tree.barrier? [] location = none)
      (hfree : tree.lookup location = none) : Due tree file location .directory
  | content (hwritten : fate tree file = .ok .written) :
      Due tree file (locationOf file.path) (.file file.content.toUTF8)

/-! ## Batches of files that do not meet -/

/-- The paths are plain, and none of them leads to or through another. -/
structure AreApart (files : List GeneratedFile) : Prop where
  isPlain : ∀ file ∈ files, IsPlain file.path
  apart : files.Pairwise fun file other => ¬ file.path.segments <+: other.path.segments ∧
    ¬ other.path.segments <+: file.path.segments

variable {tree now later final : FileTree} {files : List GeneratedFile}
  {file other : GeneratedFile} {path above : Path} {location : Location} {names : List String}
  {next : Except SystemError Unit → Job} {outcomes : List WriteOutcome}

theorem AreApart.not_prefix (h : AreApart files) :
    files.Pairwise fun file other => ¬ locationOf file.path <+: locationOf other.path ∧
      ¬ locationOf other.path <+: locationOf file.path := by
  have hsegments {file other : GeneratedFile} (hfile : file ∈ files) (hother : other ∈ files)
      (hwithin : locationOf file.path <+: locationOf other.path) :
      file.path.segments <+: other.path.segments := by
    rw [(h.isPlain file hfile).segments_eq, (h.isPlain other hother).segments_eq]
    exact (List.prefix_cons_inj _).mpr (hwithin.map _)
  refine h.apart.imp_of_mem fun hfile hother hapart => ?_
  exact ⟨mt (hsegments hfile hother) hapart.1, mt (hsegments hother hfile) hapart.2⟩

theorem AreApart.eq_of_prefix (h : AreApart files) (hfile : file ∈ files) (hother : other ∈ files)
    (hwithin : locationOf other.path <+: locationOf file.path) : other = file := by
  by_contra hne
  have hsymm : Std.Symm fun file other : GeneratedFile =>
      ¬ locationOf file.path <+: locationOf other.path ∧
        ¬ locationOf other.path <+: locationOf file.path := ⟨fun _ _ h => ⟨h.2, h.1⟩⟩
  exact (h.not_prefix.forall hother hfile hne).1 hwithin

/-- The tree at some time of the run: what is not as it was is what one of the files adds. -/
structure Grown (tree : FileTree) (files : List GeneratedFile) (now : FileTree) : Prop where
  workDir_eq : now.workDir = tree.workDir
  isGrounded : now.IsGrounded
  lookup_eq : ∀ location, now.lookup location = tree.lookup location ∨
    ∃ file ∈ files, ∃ entry, Due tree file location entry ∧ now.lookup location = some entry

/-- On the way to a file there is what was there, or a new directory. -/
theorem Grown.lookup_above (h : Grown tree files now) (hapart : AreApart files)
    (hfile : file ∈ files) (hwithin : location <+: locationOf file.path)
    (hne : location ≠ locationOf file.path) :
    now.lookup location = tree.lookup location ∨
      tree.lookup location = none ∧ now.lookup location = some .directory := by
  rcases h.lookup_eq location with heq | ⟨other, hother, entry, hdue, hnew⟩
  · exact Or.inl heq
  · cases hdue with
    | directory _ _ _ _ _ hfree => exact Or.inr ⟨hfree, hnew⟩
    | content _ =>
        -- a content on the way could only be that of the file itself
        cases hapart.eq_of_prefix hfile hother hwithin
        exact absurd rfl hne

/-- On the way to a file there are the same barriers all the time. -/
theorem Grown.barrier?_eq (h : Grown tree files now) (hapart : AreApart files)
    (hfile : file ∈ files) (hparent : file.path.parent? = some above)
    (hnames : names <+: locationOf above) :
    now.barrier? [] names = tree.barrier? [] names := by
  obtain ⟨_, _, name, hlocation⟩ := (hapart.isPlain file hfile).parent hparent
  refine barrier?_congr fun front hfront => ?_
  have hfront := hfront.trans hnames
  refine h.lookup_above hapart hfile ?_ fun heq => ?_
  · rw [List.nil_append, hlocation]
    exact hfront.trans (List.prefix_append _ _)
  · rw [List.nil_append, hlocation] at heq
    have hlength := hfront.length_le
    rw [heq, List.length_append, List.length_singleton] at hlength
    omega

/-- The terms on which files that do not meet are written. -/
def sharing (tree : FileTree) (files : List GeneratedFile) : Protocol where
  inv := Grown tree files
  rely file now later :=
    later.lookup (locationOf file.path) = now.lookup (locationOf file.path) ∧
      ∀ location, now.lookup location = some .directory → later.lookup location = some .directory
  acts file now later :=
    (∀ location, later.lookup location = now.lookup location ∨ location <+: locationOf file.path) ∧
      ∀ location, now.lookup location = some .directory → later.lookup location = some .directory
  ends file result later := result = fate tree file ∧
    ∀ location entry, Due tree file location entry → later.lookup location = some entry
  rely_refl _ _ := ⟨rfl, fun _ => id⟩
  rely_trans h h' := ⟨h'.1.trans h.1, fun location hnow => h'.2 location (h.2 location hnow)⟩
  ends_of_rely h hrely := ⟨h.1, fun location entry hdue => by
    have hnow := h.2 location entry hdue
    cases hdue with
    | directory => exact hrely.2 location hnow
    | content => exact hrely.1.trans hnow⟩

theorem AreApart.bears (h : AreApart files) :
    files.Pairwise fun file other =>
      (sharing tree files).Bears file other ∧ (sharing tree files).Bears other file := by
  have hbears {file other : GeneratedFile}
      (hapart : ¬ locationOf other.path <+: locationOf file.path) :
      (sharing tree files).Bears file other :=
    fun now later hacts => ⟨(hacts.1 _).resolve_right hapart, hacts.2⟩
  exact h.not_prefix.imp fun hapart => ⟨hbears hapart.2, hbears hapart.1⟩

/-- Putting an entry that is due: nothing else changes, and no directory is lost. -/
theorem Grown.put {entry : Entry} (h : Grown tree files now) (hfile : file ∈ files)
    (hdue : Due tree file location entry) (hwithin : location <+: locationOf file.path)
    (hkeep : now.lookup location = some .directory → entry = .directory)
    (hground : (now.put location entry).IsGrounded) :
    Grown tree files (now.put location entry) ∧
      (sharing tree files).acts file now (now.put location entry) := by
  have hput := fun other => lookup_put_eq_or now location other entry
  refine ⟨⟨h.workDir_eq, hground, fun other => ?_⟩, fun other => ?_, fun other hother => ?_⟩
  · rcases hput other with heq | ⟨rfl, heq⟩
    · rw [heq]
      exact h.lookup_eq other
    · exact Or.inr ⟨file, hfile, entry, hdue, heq⟩
  · exact (hput other).imp_right fun ⟨heq, _⟩ => heq ▸ hwithin
  · rcases hput other with heq | ⟨rfl, heq⟩
    · rw [heq, hother]
    · rw [heq, hkeep hother]

/-! ## Making directories -/

/-- As far as no barrier comes, there are directories now. -/
def Paves (tree now : FileTree) (names : List String) : Prop :=
  ∀ front, front <+: names → tree.barrier? [] front = none → now.lookup front = some .directory

/-- What comes of making the directories along names. -/
def making (tree : FileTree) (names : List String) : Except SystemError Unit :=
  match tree.barrier? [] names with
  | none => .ok ()
  | some error => .error error

/-- A file of the batch that is not skipped, and the directory in which it is to be. -/
structure IsBound (tree : FileTree) (files : List GeneratedFile) (file : GeneratedFile)
    (directory : Path) : Prop where
  apart : AreApart files
  mem : file ∈ files
  passed : ¬ IsSkipped tree file
  parent : file.path.parent? = some directory
  check : checkPath directory = .ok ()

variable {directory : Path} {name : String}

theorem IsBound.exists_name (h : IsBound tree files file directory) :
    ∃ name, locationOf file.path = locationOf directory ++ [name] :=
  ((h.apart.isPlain file h.mem).parent h.parent).2.2

theorem IsBound.prefix_place (h : IsBound tree files file directory)
    (hnames : names <+: locationOf directory) :
    names <+: locationOf file.path ∧ names ≠ locationOf file.path := by
  obtain ⟨name, hlocation⟩ := h.exists_name
  rw [hlocation]
  refine ⟨hnames.trans (List.prefix_append _ _), ?_⟩
  rintro rfl
  have hlength := hnames.length_le
  rw [List.length_append, List.length_singleton] at hlength
  omega

theorem IsBound.paves (h : IsBound tree files file directory) (hgrown : Grown tree files now)
    (hnames : names <+: locationOf directory) (hpaved : now.IsPaved [] names) :
    Paves tree now names := by
  intro front hfront hopen
  rw [← hgrown.barrier?_eq h.apart h.mem h.parent (hfront.trans hnames)] at hopen
  exact hpaved front hfront hopen

theorem Paves.of_rely (h : Paves tree now names)
    (hrely : (sharing tree files).rely file now later) : Paves tree later names :=
  fun front hfront hopen => hrely.2 front (h front hfront hopen)

/-- A directory is made that was missing. -/
theorem IsBound.put_directory (h : IsBound tree files file directory)
    (hgrown : Grown tree files now) (hnames : names ++ [name] <+: locationOf directory)
    (hopen : tree.barrier? [] (names ++ [name]) = none)
    (habove : now.lookup names = some .directory) (hfree : now.lookup (names ++ [name]) = none) :
    Grown tree files (now.put (names ++ [name]) .directory) ∧
      (sharing tree files).acts file now (now.put (names ++ [name]) .directory) ∧
      (sharing tree files).rely file now (now.put (names ++ [name]) .directory) := by
  obtain ⟨hwithin, hne⟩ := h.prefix_place hnames
  -- what is missing now was missing at the start, so the directory is due
  have hold : tree.lookup (names ++ [name]) = none := by
    rcases hgrown.lookup_above h.apart h.mem hwithin hne with heq | ⟨hnone, _⟩
    · rw [← heq, hfree]
    · exact hnone
  have hdue : Due tree file (names ++ [name]) .directory :=
    .directory h.passed h.parent h.check hnames hopen hold
  have hground : (now.put (names ++ [name]) .directory).IsGrounded :=
    hgrown.isGrounded.put habove (by simp [hfree]) (by simp)
  obtain ⟨hmade, hacts⟩ := hgrown.put h.mem hdue hwithin (fun _ => rfl) hground
  refine ⟨hmade, hacts, ?_, hacts.2⟩
  exact (lookup_put_eq_or now _ _ _).resolve_right fun ⟨heq, _⟩ => hne heq

/-- One attempt to make a directory: it is there afterwards, or a barrier is before it, or the
directory above is missing. -/
theorem settles_attempt {k : Except SystemError Unit → Job}
    (hbound : IsBound tree files file directory) (hpath : IsPlain path)
    (hcheck : checkPath path = .ok ()) (hwithin : locationOf path <+: locationOf directory)
    (hok : k (.ok ()) = next (.ok ()))
    (herror : ∀ cause, cause ≠ .notFound → k (.error cause) =
      .look (·.isDirectory path) fun there => next (if there then .ok () else .error cause))
    (hmissing : ∀ later, Grown tree files later → (sharing tree files).rely file now later →
      ∀ front last, locationOf path = front ++ [last] → later.lookup front = none →
        (∀ error, tree.barrier? [] front = some error →
          tree.barrier? [] (locationOf path) = some error) →
        (k (.error .notFound)).Settles (sharing tree files) file later)
    (hnext : ∀ later, Grown tree files later →
      later.lookup (locationOf file.path) = tree.lookup (locationOf file.path) →
      Paves tree later (locationOf path) →
        (next (making tree (locationOf path))).Settles (sharing tree files) file later)
    (hnow : now.lookup (locationOf file.path) = tree.lookup (locationOf file.path)) :
    (Job.act (·.makeDirectory path) k).Settles (sharing tree files) file now := by
  refine Job.settles_act fun later hlater hrely => ?_
  have hplace := hrely.1.trans hnow
  have hbarrier {last : FileTree} (hlast : Grown tree files last) :=
    hlast.barrier?_eq hbound.apart hbound.mem hbound.parent hwithin
  rcases makeDirectory_cases hlater.isGrounded hpath hcheck with
    ⟨error, hne, hmake, hstop, hpaved⟩ | ⟨hopen, hthere, error, hne, hmake⟩ |
    ⟨hopen, front, last, hlocation, habove, hfree, hmake⟩ |
    ⟨front, last, hlocation, hfree, hlonger, hmake⟩
  -- a barrier: the look after it finds no directory
  · rw [hbarrier hlater] at hstop
    have hmaking : making tree (locationOf path) = .error error := by rw [making, hstop]
    refine Or.inl ⟨error, hmake, ?_⟩
    rw [herror _ hne]
    intro last hlast hrely'
    -- others may act before the look, but the barrier is there all the time
    have hno : last.isDirectory path = false := by
      by_contra hthere
      obtain ⟨_, hopen⟩ :=
        (isDirectory_iff_lookup hlast.isGrounded hpath hcheck).mp (by simpa using hthere)
      rw [hbarrier hlast, hstop] at hopen
      cases hopen
    have hlastPaved := (hbound.paves hlater hwithin hpaved).of_rely hrely'
    have hlastNext := hnext last hlast (hrely'.1.trans hplace) hlastPaved
    rw [hmaking] at hlastNext
    simp only [hno]
    exact hlastNext
  -- it is there already: the attempt fails, and the look finds a directory
  · rw [hbarrier hlater] at hopen
    have hmaking : making tree (locationOf path) = .ok () := by rw [making, hopen]
    refine Or.inl ⟨error, hmake, ?_⟩
    rw [herror _ hne]
    intro last hlast hrely'
    have hlastThere := hrely'.2 _ hthere
    have hyes : last.isDirectory path = true := by
      refine (isDirectory_iff_lookup hlast.isGrounded hpath hcheck).mpr ⟨hlastThere, ?_⟩
      rw [hbarrier hlast, hopen]
    have hlastPaved := hbound.paves hlast hwithin (isPaved_of_directory hlast.isGrounded hlastThere)
    have hlastNext := hnext last hlast (hrely'.1.trans hplace) hlastPaved
    rw [hmaking] at hlastNext
    simp only [hyes]
    exact hlastNext
  -- it was missing and is made
  · rw [hbarrier hlater] at hopen
    have hmaking : making tree (locationOf path) = .ok () := by rw [making, hopen]
    rw [hlocation] at hmake hwithin hopen hfree hmaking hnext
    obtain ⟨hmade, hacts, hrely'⟩ := hbound.put_directory hlater hwithin hopen habove hfree
    refine Or.inr ⟨_, hmake, hmade, hacts, ?_⟩
    have hthere : (later.put (front ++ [last]) .directory).lookup (front ++ [last]) =
        some .directory := by
      rw [lookup_put _ _ _ _ (by simp), if_pos rfl]
    have hpaved := hbound.paves hmade hwithin (isPaved_of_directory hmade.isGrounded hthere)
    have hmadeNext := hnext _ hmade (hrely'.1.trans hplace) hpaved
    rw [hmaking] at hmadeNext
    rw [hok]
    exact hmadeNext
  -- the directory above is missing, which is for the caller to mend
  · refine Or.inl ⟨.notFound, hmake, ?_⟩
    refine hmissing later hlater hrely front last hlocation hfree fun error hstop => ?_
    rw [← hbarrier hlater]
    refine hlonger error ?_
    rwa [hlater.barrier?_eq hbound.apart hbound.mem hbound.parent ?_]
    rw [hlocation] at hwithin
    exact (List.prefix_append _ _).trans hwithin

/-- Making all directories above a file: in the end all are there up to the first barrier. -/
theorem settles_makeDirectories (hbound : IsBound tree files file directory) (hpath : IsPlain path)
    (hcheck : checkPath path = .ok ()) (hwithin : locationOf path <+: locationOf directory)
    (hnext : ∀ later, Grown tree files later →
      later.lookup (locationOf file.path) = tree.lookup (locationOf file.path) →
      Paves tree later (locationOf path) →
        (next (making tree (locationOf path))).Settles (sharing tree files) file later)
    (hnow : now.lookup (locationOf file.path) = tree.lookup (locationOf file.path)) :
    (Job.makeDirectories path.ancestors next).Settles (sharing tree files) file now := by
  -- upwards from the path; what is done after a directory is made differs from level to level
  fun_induction Path.ancestors path generalizing next now with
  | case1 path hparent =>
      refine settles_attempt hbound hpath hcheck hwithin rfl ?_ ?_ hnext hnow
      · intro cause hne
        cases cause with
        | notFound => exact absurd rfl hne
        | _ => rfl
      · intro later _ _ front last hlocation
        rw [hpath.locationOf_of_parent?_eq_none hparent] at hlocation
        simp at hlocation
  | case2 path above hparent hempty => exact absurd hempty (hpath.parent hparent).1
  | case3 path above hparent hne ih =>
      obtain ⟨_, habove, name, hname⟩ := hpath.parent hparent
      have hcheckAbove := checkPath_parent hparent hne hcheck
      have haboveIn : locationOf above <+: locationOf directory := by
        rw [hname] at hwithin
        exact (List.prefix_append _ _).trans hwithin
      refine settles_attempt hbound hpath hcheck hwithin rfl ?_ ?_ hnext hnow
      · intro cause hne
        cases cause with
        | notFound => exact absurd rfl hne
        | _ => rfl
      · intro later hlater hrely front last hlocation _ hlonger
        obtain rfl : front = locationOf above := by
          rw [hname] at hlocation
          exact (List.append_inj' hlocation rfl).1.symm
        -- what follows the directory above is a second attempt, or the same error
        refine ih habove hcheckAbove haboveIn (fun again hagain hplace hpaved => ?_)
          (hrely.1.trans hnow)
        cases hbarrier : tree.barrier? [] (locationOf above) with
        | some error =>
            -- what stops the directory above stops this one
            have hstop : tree.barrier? [] (locationOf path) = some error := hlonger error hbarrier
            have hpavedPath : Paves tree again (locationOf path) := by
              intro front hfront hopen
              rw [hname] at hfront hstop
              rcases List.prefix_concat_iff.mp hfront with rfl | hfront
              · rw [hstop] at hopen
                cases hopen
              · exact hpaved front hfront hopen
            have hagainNext := hnext again hagain hplace hpavedPath
            rw [making, hstop] at hagainNext
            rw [making, hbarrier]
            exact hagainNext
        | none =>
            have hthere := hpaved _ List.prefix_rfl hbarrier
            rw [making, hbarrier]
            refine settles_attempt hbound hpath hcheck hwithin rfl (fun _ _ => rfl) ?_ hnext hplace
            -- the directory above stays, so it is not missing again
            intro last _ hrely' front name' hlocation' hfree
            rw [hlocation] at hlocation'
            rw [← (List.append_inj' hlocation' rfl).1, hrely'.2 _ hthere] at hfree
            cases hfree

/-! ## Writing a file -/

theorem fate_of_makingError? {cause : SystemError} (hpassed : ¬ IsSkipped tree file)
    (h : makingError? tree file.path = some cause) :
    fate tree file = .error ⟨.createDirectory, file.path.directory, cause⟩ := by
  rw [fate, if_neg hpassed, h]

theorem fate_of_contentError? {cause : SystemError} (hpassed : ¬ IsSkipped tree file)
    (hmade : makingError? tree file.path = none)
    (h : tree.contentError? file.path = some cause) :
    fate tree file = .error ⟨.write, file.path, cause⟩ := by
  rw [fate, if_neg hpassed, hmade]
  simp only [h]

theorem fate_of_written (hpassed : ¬ IsSkipped tree file)
    (hmade : makingError? tree file.path = none) (h : tree.contentError? file.path = none) :
    fate tree file = .ok .written := by
  rw [fate, if_neg hpassed, hmade]
  simp only [h]

/-- What is due is there when the way to the file is paved and its content is in place. -/
theorem lookup_of_due {entry : Entry} (hdue : Due tree file location entry)
    (hpaved : ∀ above, file.path.parent? = some above → checkPath above = .ok () →
      Paves tree now (locationOf above))
    (hcontent : fate tree file = .ok .written →
      now.lookup (locationOf file.path) = some (.file file.content.toUTF8)) :
    now.lookup location = some entry := by
  cases hdue with
  | directory _ hparent hcheck hwithin hopen _ =>
      exact hpaved _ hparent hcheck location hwithin hopen
  | content hwritten => exact hcontent hwritten

/-- Only a name in a directory can get a content. -/
theorem exists_parent_of_contentError? (hplain : IsPlain path)
    (h : tree.contentError? path = none) :
    (∃ above, path.parent? = some above) ∧ tree.lookup (locationOf path) ≠ some .directory := by
  unfold contentError? at h
  split at h
  · cases h
  split at h
  · rename_i name hname
    split at h
    · cases h
    split at h
    · cases h
    · rename_i hdirectory
      refine ⟨Option.ne_none_iff_exists'.mp fun hparent => ?_, hdirectory⟩
      have hentry : entrySteps path = [] := by
        rw [hplain.entrySteps_eq, hplain.locationOf_of_parent?_eq_none hparent]
        rfl
      rcases stepsOf_eq_or path with heq | heq <;> simp [heq, hentry] at hname
  · cases h

theorem makingError?_of_parent (hparent : path.parent? = some above)
    (hcheck : checkPath above = .ok ()) :
    makingError? tree path = tree.barrier? [] (locationOf above) := by
  rw [makingError?, hparent]
  simp only [hcheck]

theorem makingError?_eq_none (h : makingError? tree path = none)
    (hparent : path.parent? = some above) :
    checkPath above = .ok () ∧ tree.barrier? [] (locationOf above) = none := by
  unfold makingError? at h
  rw [hparent] at h
  simp only at h
  split at h
  · cases h
  · rename_i hcheck
    exact ⟨hcheck, h⟩

theorem settles_writeContent (hapart : AreApart files) (hfile : file ∈ files)
    (hpassed : ¬ IsSkipped tree file) (hmade : makingError? tree file.path = none)
    (hpaved : ∀ above, file.path.parent? = some above → checkPath above = .ok () →
      Paves tree now (locationOf above))
    (hnow : now.lookup (locationOf file.path) = tree.lookup (locationOf file.path)) :
    (Job.writeContent file.path file.content).Settles (sharing tree files) file now := by
  refine Job.settles_act fun later hlater hrely => ?_
  have hplain := hapart.isPlain file hfile
  have hplace := hrely.1.trans hnow
  have hpavedLater (above : Path) (hparent : file.path.parent? = some above)
      (hcheck : checkPath above = .ok ()) : Paves tree later (locationOf above) :=
    (hpaved above hparent hcheck).of_rely hrely
  -- nothing stopped the making of the directory, and directories stay
  have habove (above : Path) (hparent : file.path.parent? = some above) :
      later.lookup (locationOf above) = some .directory ∧
        later.barrier? [] (locationOf above) = none := by
    obtain ⟨hcheck, hopen⟩ := makingError?_eq_none hmade hparent
    exact ⟨hpavedLater above hparent hcheck _ List.prefix_rfl hopen,
      (hlater.barrier?_eq hapart hfile hparent List.prefix_rfl).trans hopen⟩
  have hwrite := writeText_eq hlater.isGrounded hplain habove file.content
  -- whether the content is refused was settled at the start, since nobody else touches the place
  rw [contentError?_congr hplace] at hwrite
  cases hcontent : tree.contentError? file.path with
  | some cause =>
      have hfate := fate_of_contentError? hpassed hmade hcontent
      rw [hcontent] at hwrite
      refine Or.inl ⟨cause, hwrite, hfate.symm, fun location entry hdue => ?_⟩
      refine lookup_of_due hdue hpavedLater fun hwritten => ?_
      cases hfate.symm.trans hwritten
  | none =>
      have hfate := fate_of_written hpassed hmade hcontent
      obtain ⟨⟨above, hparent⟩, hnot⟩ := exists_parent_of_contentError? hplain hcontent
      obtain ⟨_, _, name, hlocation⟩ := hplain.parent hparent
      rw [hcontent] at hwrite
      rw [← hplace] at hnot
      have hground : (later.put (locationOf file.path) (.file file.content.toUTF8)).IsGrounded := by
        rw [hlocation] at hnot ⊢
        exact hlater.isGrounded.put (habove above hparent).1 hnot (by simp)
      have hthere : (later.put (locationOf file.path) (.file file.content.toUTF8)).lookup
          (locationOf file.path) = some (.file file.content.toUTF8) := by
        rw [lookup_put _ _ _ _ (by simp [hlocation]), if_pos rfl]
      obtain ⟨hput, hacts⟩ := hlater.put hfile (.content hfate) List.prefix_rfl
        (fun hdirectory => absurd hdirectory hnot) hground
      refine Or.inr ⟨_, hwrite, hput, hacts, hfate.symm, fun location entry hdue => ?_⟩
      exact lookup_of_due hdue (fun above hparent hcheck front hfront hopen =>
        hacts.2 front (hpavedLater above hparent hcheck front hfront hopen)) fun _ => hthere

/-- A directory whose path the system does not take. -/
theorem settles_makeDirectories_of_error {cause : SystemError} (hne : path.text ≠ "")
    (hcheck : checkPath path = .error cause)
    (hnext : ∀ later, Grown tree files later → (sharing tree files).rely file now later →
      (next (.error cause)).Settles (sharing tree files) file later) :
    (Job.makeDirectories path.ancestors next).Settles (sharing tree files) file now := by
  have hmissing := ne_notFound_of_checkPath hne hcheck
  obtain ⟨rest, hrest⟩ := exists_ancestors_eq_cons path
  rw [hrest]
  refine Job.settles_act fun later hlater hrely => Or.inl ?_
  refine ⟨cause, (makeDirectory_of_checkPath hcheck).1, ?_⟩
  cases cause with
  | notFound => exact absurd rfl hmissing
  | _ =>
      intro last hlast hrely'
      simp only [(makeDirectory_of_checkPath hcheck).2]
      exact hnext last hlast ((sharing tree files).rely_trans hrely hrely')

theorem settles_writeThrough (hapart : AreApart files) (hfile : file ∈ files)
    (hpassed : ¬ IsSkipped tree file)
    (hnow : now.lookup (locationOf file.path) = tree.lookup (locationOf file.path)) :
    (Job.writeThrough file.path file.content).Settles (sharing tree files) file now := by
  unfold Job.writeThrough
  cases hparent : file.path.parent? with
  | none =>
      -- a root has no directories above it; its content is refused later
      have hmade : makingError? tree file.path = none := by rw [makingError?, hparent]
      refine settles_writeContent hapart hfile hpassed hmade (fun above habove => ?_) hnow
      rw [hparent] at habove
      cases habove
  | some above =>
      obtain ⟨hne, habove, _⟩ := (hapart.isPlain file hfile).parent hparent
      have hdirectory : file.path.directory = above := by rw [Path.directory, hparent]; rfl
      simp only [if_neg hne]
      rcases hcheck : checkPath above with cause | _
      · have hmade : makingError? tree file.path = some cause := by
          rw [makingError?, hparent]
          simp only [hcheck]
        have hfate := fate_of_makingError? hpassed hmade
        refine settles_makeDirectories_of_error hne hcheck fun later _ _ => ?_
        refine ⟨by rw [hfate, hdirectory], fun location entry hdue => ?_⟩
        refine lookup_of_due hdue (fun other hother hok => ?_) fun hwritten => ?_
        · cases hparent.symm.trans hother
          cases hcheck.symm.trans hok
        · cases hfate.symm.trans hwritten
      have hbound : IsBound tree files file above := ⟨hapart, hfile, hpassed, hparent, hcheck⟩
      refine settles_makeDirectories hbound habove hcheck List.prefix_rfl
        (fun later hlater hplace hpaved => ?_) hnow
      have hpavedAll (other : Path) (hother : file.path.parent? = some other)
          (_ : checkPath other = .ok ()) : Paves tree later (locationOf other) := by
        cases hparent.symm.trans hother
        exact hpaved
      have hmaking : makingError? tree file.path = tree.barrier? [] (locationOf above) :=
        makingError?_of_parent hparent hcheck
      unfold making
      cases hbarrier : tree.barrier? [] (locationOf above) with
      | some cause =>
          have hfate := fate_of_makingError? hpassed (hmaking.trans hbarrier)
          exact ⟨by rw [hfate, hdirectory], fun location entry hdue =>
            lookup_of_due hdue hpavedAll fun hwritten => by cases hfate.symm.trans hwritten⟩
      | none =>
          exact settles_writeContent hapart hfile hpassed (hmaking.trans hbarrier) hpavedAll hplace

theorem settles_job (hground : tree.IsGrounded) (hapart : AreApart files) (hfile : file ∈ files) :
    file.job.Settles (sharing tree files) file tree := by
  unfold GeneratedFile.job
  cases hrule : file.overwrite with
  | always =>
      have hpassed : ¬ IsSkipped tree file := by simp [IsSkipped, hrule]
      exact settles_writeThrough hapart hfile hpassed rfl
  | ifMissing =>
      intro now hnow hrely
      -- the look comes late, but it sees what was there at the start
      have hlook := holds_congr hground hnow.isGrounded (hapart.isPlain file hfile) hrely.1
      simp only [hlook]
      by_cases hholds : tree.holds file.path = true
      · have hskipped : IsSkipped tree file := ⟨hrule, hholds⟩
        have hfate : fate tree file = .ok .skipped := by rw [fate, if_pos hskipped]
        simp only [hholds]
        refine ⟨hfate.symm, fun location entry hdue => ?_⟩
        cases hdue with
        | directory hpassed => exact absurd hskipped hpassed
        | content hwritten => cases hfate.symm.trans hwritten
      · have hpassed : ¬ IsSkipped tree file := fun hskipped => hholds hskipped.2
        simp only [hholds]
        exact settles_writeThrough hapart hfile hpassed hrely.1

/-! ## The batch -/

/-- Every run of the batch comes to what the tree at the start says. -/
theorem RunsTo.eq_fate (h : RunsTo tree files outcomes final) (hground : tree.IsGrounded)
    (hapart : AreApart files) :
    outcomes = files.map (fun file => ⟨file.path, fate tree file⟩) ∧ Grown tree files final ∧
      ∀ file ∈ files, ∀ location entry, Due tree file location entry →
        final.lookup location = some entry := by
  have hstart : (sharing tree files).inv tree := ⟨rfl, hground, fun _ => Or.inl rfl⟩
  obtain ⟨hfinal, hends⟩ := h.settles hstart hapart.bears
    fun file hfile => settles_job hground hapart hfile
  have hboth : List.Forall₂ (fun (file : GeneratedFile) (outcome : WriteOutcome) =>
      (∀ location entry, Due tree file location entry → final.lookup location = some entry) ∧
        outcome.path = file.path ∧ outcome.result = fate tree file) files outcomes :=
    hends.imp fun _ _ hend => ⟨hend.2.2, hend.1, hend.2.1⟩
  obtain ⟨hdue, hsame⟩ := (List.forall₂_and_left _ _).mp hboth
  exact ⟨eq_map_of_forall₂ hsame, hfinal, hdue⟩

/-- What becomes of a file that is written alone. -/
theorem fst_write_eq_fate (hground : tree.IsGrounded) (hplain : IsPlain file.path) :
    (file.write tree).1 = fate tree file := by
  -- one file is a batch, and its run is one of those that come to what is told
  have hapart : AreApart [file] := ⟨by simpa using hplain, List.pairwise_singleton _ _⟩
  have hrun := runsTo_writeAll tree [file]
  have halone := (hrun.eq_fate hground hapart).1
  simp only [writeAll, List.map_cons, List.map_nil, List.cons.injEq,
    WriteOutcome.mk.injEq] at halone
  exact halone.1.2

/-- **Batches in any order.**  In a tree of directories and regular files, a batch of plain paths
none of which leads to or through another comes to one and the same end, in whichever order the
steps of its files are taken: each file has the result that it has alone, and the trees hold the
same. -/
theorem writeAll_confluent (hclosed : tree.IsClosed) (hlinks : tree.HasNoLinks)
    (hplain : ∀ file ∈ files, IsPlain file.path)
    (hapart : files.Pairwise fun file other => ¬ file.path.segments <+: other.path.segments ∧
      ¬ other.path.segments <+: file.path.segments) :
    RunsTo tree files (writeAll tree files).1 (writeAll tree files).2 ∧
      ∀ outcomes final, RunsTo tree files outcomes final →
        outcomes = files.map (fun file => ⟨file.path, (file.write tree).1⟩) ∧
          final.workDir = tree.workDir ∧
          ∀ location, final.lookup location = (writeAll tree files).2.lookup location := by
  have hground := isGrounded_of_isClosed hclosed hlinks
  have hall : AreApart files := ⟨hplain, hapart⟩
  have hrun := runsTo_writeAll tree files
  refine ⟨hrun, fun outcomes final h => ?_⟩
  obtain ⟨houtcomes, hgrown, hdue⟩ := h.eq_fate hground hall
  obtain ⟨_, hgrown', hdue'⟩ := hrun.eq_fate hground hall
  refine ⟨?_, hgrown.workDir_eq, fun location => ?_⟩
  · rw [houtcomes]
    refine List.map_congr_left fun file hfile => ?_
    rw [fst_write_eq_fate hground (hplain file hfile)]
  -- what one run adds is due, so the other one has added it too
  · rcases hgrown.lookup_eq location with heq | ⟨file, hfile, entry, hnew, heq⟩
    · rcases hgrown'.lookup_eq location with heq' | ⟨file, hfile, entry, hnew, heq'⟩
      · rw [heq, heq']
      · rw [heq', hdue file hfile location entry hnew]
    · rw [heq, hdue' file hfile location entry hnew]

/-- Two files share a directory that is missing, and the third one is blocked by a file. -/
theorem writeAll_confluent_card :
    let tree : FileTree :=
      ⟨[(["src"], .directory), (["src", "readme"], .file "text".toUTF8)], []⟩
    let files : List GeneratedFile :=
      [⟨⟨"/src/card/card.tsx"⟩, "new", .ifMissing⟩, ⟨⟨"/src/card/card.css"⟩, "", .always⟩,
        ⟨⟨"/src/readme/card.md"⟩, "", .always⟩]
    ∀ outcomes final, RunsTo tree files outcomes final →
      outcomes = [⟨⟨"/src/card/card.tsx"⟩, .ok .written⟩, ⟨⟨"/src/card/card.css"⟩, .ok .written⟩,
        ⟨⟨"/src/readme/card.md"⟩, .error ⟨.createDirectory, ⟨"/src/readme"⟩, .alreadyExists⟩⟩] ∧
        ∀ location, final.lookup location = (writeAll tree files).2.lookup location := by
  intro tree files outcomes final hrun
  have hclosed : tree.IsClosed := by decide
  have hlinks : tree.HasNoLinks := hasNoLinks_of_entries (by simp [tree])
  have hplain : ∀ file ∈ files, IsPlain file.path := by
    simp only [files, List.forall_mem_cons]
    refine ⟨⟨by decide, by decide, by decide⟩, ⟨by decide, by decide, by decide⟩,
      ⟨by decide, by decide, by decide⟩, by simp⟩
  have hapart : files.Pairwise fun file other => ¬ file.path.segments <+: other.path.segments ∧
      ¬ other.path.segments <+: file.path.segments := by decide
  obtain ⟨houtcomes, _, htree⟩ :=
    (writeAll_confluent hclosed hlinks hplain hapart).2 outcomes final hrun
  have hground := isGrounded_of_isClosed hclosed hlinks
  have hfates : outcomes = files.map fun file => ⟨file.path, fate tree file⟩ :=
    houtcomes.trans (List.map_congr_left fun file hfile => by
      rw [fst_write_eq_fate hground (hplain file hfile)])
  have hcard : checkPath ⟨"/src/card"⟩ = .ok () :=
    checkPath_eq_ok (by decide) (by decide) (by decide)
  have hreadme : checkPath ⟨"/src/readme"⟩ = .ok () :=
    checkPath_eq_ok (by decide) (by decide) (by decide)
  have htsx : checkPath ⟨"/src/card/card.tsx"⟩ = .ok () :=
    checkPath_eq_ok (by decide) (by decide) (by decide)
  have hcss : checkPath ⟨"/src/card/card.css"⟩ = .ok () :=
    checkPath_eq_ok (by decide) (by decide) (by decide)
  have hfirst : fate tree ⟨⟨"/src/card/card.tsx"⟩, "new", .ifMissing⟩ = .ok .written := by
    have hpassed : ¬ IsSkipped tree ⟨⟨"/src/card/card.tsx"⟩, "new", .ifMissing⟩ := by
      rintro ⟨_, hholds⟩
      obtain ⟨location, entry, hspot, hentry⟩ := holds_iff.mp hholds
      have hnone : tree.lookup (locationOf ⟨"/src/card/card.tsx"⟩) = none := by decide
      rw [eq_locationOf_of_spotOf hlinks (by decide) hspot, hnone] at hentry
      cases hentry
    have hparent : (Path.mk "/src/card/card.tsx").parent? = some ⟨"/src/card"⟩ := by decide
    refine fate_of_written hpassed ((makingError?_of_parent hparent hcard).trans (by decide)) ?_
    simp only [contentError?, htsx]
    decide
  have hsecond : fate tree ⟨⟨"/src/card/card.css"⟩, "", .always⟩ = .ok .written := by
    have hparent : (Path.mk "/src/card/card.css").parent? = some ⟨"/src/card"⟩ := by decide
    refine fate_of_written (by simp [IsSkipped])
      ((makingError?_of_parent hparent hcard).trans (by decide)) ?_
    simp only [contentError?, hcss]
    decide
  have hthird : fate tree ⟨⟨"/src/readme/card.md"⟩, "", .always⟩ =
      .error ⟨.createDirectory, ⟨"/src/readme"⟩, .alreadyExists⟩ := by
    have hparent : (Path.mk "/src/readme/card.md").parent? = some ⟨"/src/readme"⟩ := by decide
    have hmaking : makingError? tree ⟨"/src/readme/card.md"⟩ = some .alreadyExists :=
      (makingError?_of_parent hparent hreadme).trans (by decide)
    rw [fate, if_neg (by simp [IsSkipped]), hmaking, Path.directory, hparent]
    rfl
  refine ⟨?_, htree⟩
  rw [hfates]
  simp only [files, List.map_cons, List.map_nil, hfirst, hsecond, hthird]

end WebComponents.Files
