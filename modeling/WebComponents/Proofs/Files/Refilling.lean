import WebComponents.Proofs.Files.Settling
import WebComponents.Proofs.Files.Writing

/-!
# Writing over files that are there

A walk goes by what is a directory, a file or a link, and never by what a file holds, so trees that
differ in the contents of files alone have the same ways (`SameShape.walk_eq`).

A batch of files that are always written, and whose paths all lead to a file, only renews contents.
No directory is missing for any of them, so whatever the order of their steps all of them are
written (`RunsTo.renews`).
-/

namespace WebComponents.Files

namespace FileTree

variable {tree later : FileTree} {path above : Path} {here there location : Location}
  {links : Nat} {steps rest : List Step} {creating : Bool} {entry : Entry} {content : ByteArray}
  {text : String}

/-! ## Trees of one shape -/

/-- The trees differ in the contents of files alone. -/
structure SameShape (tree later : FileTree) : Prop where
  workDir_eq : later.workDir = tree.workDir
  lookup_eq : ∀ location, later.lookup location = tree.lookup location ∨
    ∃ old new, tree.lookup location = some (.file old) ∧ later.lookup location = some (.file new)

theorem SameShape.refl (tree : FileTree) : tree.SameShape tree where
  workDir_eq := rfl
  lookup_eq _ := Or.inl rfl

theorem SameShape.lookup_of_not_file {found? : Option Entry} (h : tree.SameShape later)
    (hfound : tree.lookup location = found?) (hnot : ∀ content, found? ≠ some (.file content)) :
    later.lookup location = found? := by
  rcases h.lookup_eq location with heq | ⟨old, _, hold, _⟩
  · rw [heq, hfound]
  · exact absurd (hfound.symm.trans hold) (hnot old)

theorem SameShape.exists_lookup_of_file (h : tree.SameShape later)
    (hfile : tree.lookup location = some (.file content)) :
    ∃ new, later.lookup location = some (.file new) := by
  rcases h.lookup_eq location with heq | ⟨_, new, _, hnew⟩
  · exact ⟨content, heq.trans hfile⟩
  · exact ⟨new, hnew⟩

theorem SameShape.symm (h : tree.SameShape later) : later.SameShape tree where
  workDir_eq := h.workDir_eq.symm
  lookup_eq location := by
    rcases h.lookup_eq location with heq | ⟨old, new, hold, hnew⟩
    · exact Or.inl heq.symm
    · exact Or.inr ⟨new, old, hnew, hold⟩

/-- The contents of files do not matter to a walk. -/
theorem SameShape.walk_eq (h : tree.SameShape later) :
    later.walk creating links here steps = tree.walk creating links here steps := by
  -- in the last cases there is nothing, a directory, a file and a link under the name
  fun_induction walk tree creating links here steps with
  | case1 => rw [walk]
  | case2 _ _ _ ih => rw [walk, ih]
  | case3 _ _ _ ih => rw [walk, ih]
  | case4 _ _ _ ih => rw [walk, ih]
  | case5 _ _ _ _ hslash => rw [walk, if_pos hslash]
  | case6 _ _ _ _ hslash hlength => rw [walk, if_neg hslash, if_pos hlength]
  | case7 _ _ _ hlength hlookup hslash =>
      have hlater := h.lookup_of_not_file hlookup (by simp)
      rw [walk, if_neg hslash, if_neg hlength, hlater]
      rfl
  | case8 _ _ _ _ hslash hlength hlookup hrest =>
      have hlater := h.lookup_of_not_file hlookup (by simp)
      rw [walk, if_neg hslash, if_neg hlength, hlater]
      exact if_neg hrest
  | case9 _ _ _ _ hslash hlength hlookup ih =>
      have hlater := h.lookup_of_not_file hlookup (by simp)
      rw [walk, if_neg hslash, if_neg hlength, hlater]
      exact ih
  | case10 _ _ _ hlength _ hlookup hslash =>
      obtain ⟨new, hlater⟩ := h.exists_lookup_of_file hlookup
      rw [walk, if_neg hslash, if_neg hlength, hlater]
      rfl
  | case11 _ _ _ _ hslash hlength _ hlookup hrest =>
      obtain ⟨new, hlater⟩ := h.exists_lookup_of_file hlookup
      rw [walk, if_neg hslash, if_neg hlength, hlater]
      exact if_neg hrest
  | case12 _ _ _ hslash hlength _ hlookup =>
      have hlater := h.lookup_of_not_file hlookup (by simp)
      rw [walk, if_neg hslash, if_neg hlength, hlater]
  | case13 _ _ _ hslash hlength _ hlookup _ _ ih =>
      have hlater := h.lookup_of_not_file hlookup (by simp)
      rw [walk, if_neg hslash, if_neg hlength, hlater]
      exact ih

theorem SameShape.spotOf_eq (h : tree.SameShape later) :
    later.spotOf creating path = tree.spotOf creating path := by
  have hstart : later.startOf path = tree.startOf path := by
    unfold startOf
    rw [h.workDir_eq]
  unfold spotOf
  simp only [h.walk_eq, hstart]

theorem SameShape.isDirectory_eq (h : tree.SameShape later) :
    later.isDirectory path = tree.isDirectory path := by
  have himp {tree later : FileTree} (h : tree.SameShape later)
      (hdirectory : tree.isDirectory path = true) : later.isDirectory path = true := by
    obtain ⟨location, hspot, hlookup⟩ := isDirectory_iff.mp hdirectory
    exact isDirectory_iff.mpr
      ⟨location, h.spotOf_eq.trans hspot, h.lookup_of_not_file hlookup (by simp)⟩
  exact Bool.eq_iff_iff.mpr ⟨himp h.symm, himp h⟩

/-! ## Reading -/

theorem readText_eq_ok_iff :
    tree.readText path = .ok text ↔ ∃ location content,
      tree.spotOf false path = .ok (.found location) ∧
        tree.lookup location = some (.file content) ∧ String.fromUTF8? content = some text := by
  constructor
  · intro h
    obtain ⟨content, hbytes, h⟩ := bind_eq_ok_iff.mp h
    obtain ⟨entry, hentry, hbytes⟩ := bind_eq_ok_iff.mp hbytes
    obtain ⟨location, hspot, hlookup⟩ := entryOf_eq_ok_iff.mp hentry
    cases entry with
    | directory => cases hbytes
    | link target => cases hbytes
    | file bytes =>
        cases hbytes
        split at h
        · rename_i htext
          cases h
          exact ⟨location, content, hspot, hlookup, htext⟩
        · cases h
  · rintro ⟨location, content, hspot, hlookup, htext⟩
    have hentry := entryOf_eq_ok_iff.mpr ⟨location, hspot, hlookup⟩
    have hbytes : tree.readBytes path = .ok content := by
      rw [readBytes, hentry]
      rfl
    rw [readText, hbytes]
    simp only [Bind.bind, Except.bind, htext]

theorem fromUTF8?_toUTF8 (text : String) : String.fromUTF8? text.toUTF8 = some text :=
  dif_pos text.isValidUTF8

theorem readText_of_lookup (hspot : tree.spotOf false path = .ok (.found location))
    (hfile : tree.lookup location = some (.file text.toUTF8)) : tree.readText path = .ok text :=
  readText_eq_ok_iff.mpr ⟨location, _, hspot, hfile, fromUTF8?_toUTF8 text⟩

/-! ## Directories on the way -/

/-- The location and all above it are directories, as for one that a walk from the root comes to. -/
def IsReached (tree : FileTree) (here : Location) : Prop :=
  ∀ above, above <+: here → tree.lookup above = some .directory

theorem isReached_root (tree : FileTree) : tree.IsReached [] := by
  intro above habove
  rw [List.prefix_nil.mp habove]
  rfl

theorem IsReached.dropLast (h : tree.IsReached here) : tree.IsReached here.dropLast :=
  fun above habove => h above (habove.trans (List.dropLast_prefix here))

theorem IsReached.concat {name : String} (h : tree.IsReached here)
    (hlookup : tree.lookup (here ++ [name]) = some .directory) :
    tree.IsReached (here ++ [name]) := by
  intro above habove
  rcases List.prefix_concat_iff.mp habove with rfl | habove
  · exact hlookup
  · exact h above habove

theorem IsReached.linkStart (h : tree.IsReached here) (target : String) :
    tree.IsReached (linkStart here target) := by
  unfold FileTree.linkStart
  split
  · exact isReached_root tree
  · exact h

/-- Whoever can still make a step without a name is in a directory. -/
theorem Leads.isReached (h : tree.Leads links here steps there) (hhere : tree.IsReached here)
    (hlast : ∀ name, steps.getLast? ≠ some (.name name)) : tree.IsReached there := by
  have hrest {first : Step} {rest : List Step}
      (hlast : ∀ name, (first :: rest).getLast? ≠ some (.name name)) (name : String) :
      rest.getLast? ≠ some (.name name) := by
    intro heq
    exact hlast name (by simp [List.getLast?_cons, heq])
  induction h with
  | arrived => exact hhere
  | stay _ ih => exact ih hhere (hrest hlast)
  | slash _ ih => exact ih hhere (hrest hlast)
  | up _ ih => exact ih hhere.dropLast (hrest hlast)
  | directory _ hlookup _ ih => exact ih (hhere.concat hlookup) (hrest hlast)
  | file => exact absurd rfl (hlast _)
  | @link _ _ name target rest _ _ _ _ ih =>
      refine ih (hhere.linkStart target) fun name heq => ?_
      have hne : rest ≠ [] := by
        rintro rfl
        exact hlast _ rfl
      rw [List.getLast?_append_of_ne_nil _ hne] at heq
      exact hrest hlast name heq

/-- A walk to a file is the same if the file might be created. -/
theorem Leads.walk_creating_eq (h : tree.Leads links here steps there) (hhere : tree.IsReached here)
    (hfile : tree.lookup there = some (.file content)) :
    tree.walk true links here steps = .ok (.found there) := by
  have hnotReached : ¬ tree.IsReached there := by
    intro hthere
    rw [hthere there List.prefix_rfl] at hfile
    cases hfile
  induction h with
  | arrived => rw [walk]
  | stay _ ih => rw [walk, ih hhere hfile hnotReached]
  | slash _ ih => rw [walk, ih hhere hfile hnotReached]
  | up _ ih => rw [walk, ih hhere.dropLast hfile hnotReached]
  | @directory _ _ _ rest _ hlength hlookup h ih =>
      have hslash : rest ≠ [.slash] := by
        rintro rfl
        exact hnotReached (h.isReached (hhere.concat hlookup) (by simp))
      rw [walk, if_neg (fun hrest => hslash hrest.2), if_neg (Nat.not_lt.mpr hlength), hlookup]
      exact ih (hhere.concat hlookup) hfile hnotReached
  | file hlength hlookup =>
      rw [walk, if_neg (by simp), if_neg (Nat.not_lt.mpr hlength), hlookup]
      rfl
  | @link _ _ _ target rest _ hlength hlookup h ih =>
      have hslash : rest ≠ [.slash] := by
        rintro rfl
        exact hnotReached (h.isReached (hhere.linkStart target) (by simp))
      rw [walk, if_neg (fun hrest => hslash hrest.2), if_neg (Nat.not_lt.mpr hlength), hlookup]
      exact ih (hhere.linkStart target) hfile hnotReached

/-! ## Files that are there -/

/-- The file is always written, and its path leads to a file. -/
structure Overwrites (tree : FileTree) (file : GeneratedFile) : Prop where
  always : file.overwrite = .always
  isAbsolute : file.path.isAbsolute = true
  leads : ∃ location content, tree.spotOf false file.path = .ok (.found location) ∧
    tree.lookup location = some (.file content)

variable {file : GeneratedFile}

theorem startOf_of_isAbsolute (h : path.isAbsolute = true) : tree.startOf path = [] :=
  if_pos h

theorem Overwrites.spotOf_creating (h : tree.Overwrites file)
    (hspot : tree.spotOf false file.path = .ok (.found location)) :
    tree.spotOf true file.path = .ok (.found location) := by
  obtain ⟨other, content, hother, hfile⟩ := h.leads
  obtain rfl : other = location := by
    rw [hother] at hspot
    cases hspot
    rfl
  obtain ⟨hcheck, hleads⟩ := spotOf_eq_found_iff.mp hspot
  rw [startOf_of_isAbsolute h.isAbsolute] at hleads
  rw [spotOf, hcheck, startOf_of_isAbsolute h.isAbsolute]
  exact hleads.walk_creating_eq (isReached_root tree) hfile

/-- Above a file on an absolute path there is a directory. -/
theorem Overwrites.isDirectory_parent (h : tree.Overwrites file)
    (hparent : file.path.parent? = some above) (hne : above.text ≠ "") :
    tree.isDirectory above = true := by
  obtain ⟨location, content, hspot, _⟩ := h.leads
  obtain ⟨hcheck, hleads⟩ := spotOf_eq_found_iff.mp hspot
  obtain ⟨between, last, after, hsteps, _⟩ := entrySteps_parent hparent hne
  obtain ⟨more, hmore⟩ : ∃ more, stepsOf file.path.text.toList =
      entrySteps above ++ (between ++ last :: more) := by
    rcases stepsOf_eq_or file.path with heq | heq
    · exact ⟨after, by rw [heq, hsteps, List.append_assoc]⟩
    · exact ⟨after ++ [.slash], by rw [heq, hsteps]; simp⟩
  rw [hmore, ← startOf_parent hparent hne] at hleads
  obtain ⟨_, mid, hmid, _⟩ := exists_leads_of_append hleads (by simp)
  obtain ⟨left, hon⟩ := hmid.append
  have habove : tree.Leads maxLinks (tree.startOf above) (stepsOf above.text.toList) mid := by
    rcases stepsOf_eq_or above with heq | heq
    · rw [heq, ← List.append_nil (entrySteps above)]
      exact hon [] mid .arrived
    · rw [heq]
      exact hon [.slash] mid (.slash .arrived)
  have hreached : tree.IsReached (tree.startOf above) := by
    rw [startOf_parent hparent hne, startOf_of_isAbsolute h.isAbsolute]
    exact isReached_root tree
  exact isDirectory_iff.mpr ⟨mid,
    spotOf_eq_found_iff.mpr ⟨checkPath_parent hparent hne hcheck, habove⟩,
    hmid.isReached hreached (by simp) mid List.prefix_rfl⟩

/-! ## Renewed contents -/

/-- A file of the batch leads to the location, and its content is there. -/
def Renewed (tree : FileTree) (files : List GeneratedFile) (later : FileTree)
    (location : Location) : Prop :=
  ∃ file ∈ files, tree.spotOf false file.path = .ok (.found location) ∧
    later.lookup location = some (.file file.content.toUTF8)

/-- The later tree has new contents from the batch, and is the same otherwise. -/
structure Renews (tree : FileTree) (files : List GeneratedFile) (later : FileTree) : Prop where
  workDir_eq : later.workDir = tree.workDir
  lookup_eq : ∀ location, later.lookup location = tree.lookup location ∨
    tree.Renewed files later location

variable {files : List GeneratedFile}

theorem Renews.sameShape (h : tree.Renews files later)
    (hfiles : ∀ file ∈ files, tree.Overwrites file) : tree.SameShape later where
  workDir_eq := h.workDir_eq
  lookup_eq location := by
    refine (h.lookup_eq location).imp_right ?_
    rintro ⟨file, hfile, hspot, hnew⟩
    obtain ⟨other, old, hother, hold⟩ := (hfiles file hfile).leads
    rw [hspot] at hother
    cases hother
    exact ⟨old, _, hold, hnew⟩

theorem lookup_put_eq_or (tree : FileTree) (location other : Location) (entry : Entry) :
    (tree.put location entry).lookup other = tree.lookup other ∨
      location = other ∧ (tree.put location entry).lookup other = some entry := by
  by_cases hroot : other = []
  · exact Or.inl (by simp [lookup, hroot])
  rw [lookup_put _ _ _ _ hroot]
  split
  · rename_i heq
    exact Or.inr ⟨heq, rfl⟩
  · exact Or.inl rfl

/-- A file of the batch is written. -/
theorem renewed_put (later : FileTree) (hfile : file ∈ files)
    (hspot : tree.spotOf false file.path = .ok (.found location)) (other : Location) :
    (later.put location (.file file.content.toUTF8)).lookup other = later.lookup other ∨
      tree.Renewed files (later.put location (.file file.content.toUTF8)) other := by
  rcases lookup_put_eq_or later location other (.file file.content.toUTF8) with
    heq | ⟨rfl, heq⟩
  · exact Or.inl heq
  · exact Or.inr ⟨file, hfile, hspot, heq⟩

end FileTree

open FileTree

variable {tree final : FileTree} {files : List GeneratedFile} {file : GeneratedFile}
  {outcomes : List WriteOutcome}

/-- Files that are written over files bear each other: what is new stays new. -/
def renewing (tree : FileTree) (files : List GeneratedFile) : Protocol where
  inv := tree.Renews files
  rely _ now later :=
    ∀ location, tree.Renewed files now location → tree.Renewed files later location
  acts _ now later :=
    ∀ location, tree.Renewed files now location → tree.Renewed files later location
  ends file result later := result = .ok .written ∧
    ∀ location, tree.spotOf false file.path = .ok (.found location) →
      tree.Renewed files later location
  rely_refl _ _ _ h := h
  rely_trans h h' location hnow := h' location (h location hnow)
  ends_of_rely h hrely := ⟨h.1, fun location hspot => hrely location (h.2 location hspot)⟩

theorem settles_renewing_writeContent (hfiles : ∀ file ∈ files, tree.Overwrites file)
    (hfile : file ∈ files) (now : FileTree) :
    (Job.writeContent file.path file.content).Settles (renewing tree files) file now := by
  refine Job.settles_act fun later hlater _ => Or.inr ?_
  have hshape := hlater.sameShape hfiles
  obtain ⟨location, content, hspot, hcontent⟩ := (hfiles file hfile).leads
  obtain ⟨old, hold⟩ := hshape.exists_lookup_of_file hcontent
  have hwrite : later.writeText file.path file.content =
      .ok (later.put location (.file file.content.toUTF8)) := by
    rw [writeText, writeBytes, hshape.spotOf_eq, (hfiles file hfile).spotOf_creating hspot]
    simp only [Bind.bind, Except.bind, hold]
  have hroot : location ≠ [] := ne_nil_of_lookup_ne (by rw [hcontent]; exact nofun)
  have hput := renewed_put later hfile hspot
  have hkeeps : ∀ other, tree.Renewed files later other → tree.Renewed files
      (later.put location (.file file.content.toUTF8)) other := by
    rintro other ⟨writer, hwriter, hother, hnew⟩
    rcases hput other with heq | hrenewed
    · exact ⟨writer, hwriter, hother, heq.trans hnew⟩
    · exact hrenewed
  refine ⟨_, hwrite, ⟨hlater.workDir_eq, fun other => ?_⟩, hkeeps, rfl, fun other hother => ?_⟩
  · rcases hput other with heq | hrenewed
    · rw [heq]
      exact (hlater.lookup_eq other).imp_right (hkeeps other)
    · exact Or.inr hrenewed
  · rw [hspot] at hother
    cases hother
    exact ⟨file, hfile, hspot, by rw [lookup_put _ _ _ _ hroot, if_pos rfl]⟩

theorem settles_renewing (hfiles : ∀ file ∈ files, tree.Overwrites file) (hfile : file ∈ files) :
    file.job.Settles (renewing tree files) file tree := by
  have hcontent := settles_renewing_writeContent hfiles hfile
  unfold GeneratedFile.job
  rw [(hfiles file hfile).always]
  simp only [Job.writeThrough]
  split
  · exact hcontent tree
  · rename_i above hparent
    split
    · exact hcontent tree
    · rename_i hne
      have hdirectory := (hfiles file hfile).isDirectory_parent hparent hne
      obtain ⟨paths, hpaths⟩ := exists_ancestors_eq_cons above
      rw [hpaths]
      refine Job.settles_act fun later hlater _ => Or.inl ?_
      have hthere := (hlater.sameShape hfiles).isDirectory_eq.trans hdirectory
      obtain ⟨there, hleads⟩ := leads_of_isDirectory hthere
      obtain ⟨error, herror, hmissing⟩ := create_eq_error_of_leads hleads hne .directory
      refine ⟨error, herror, ?_⟩
      -- nothing is missing, so it is only looked whether the directory is there
      cases error with
      | notFound => exact absurd rfl hmissing
      | _ =>
          intro still hstill _
          have hthere := (hstill.sameShape hfiles).isDirectory_eq.trans hdirectory
          simp only [hthere]
          exact hcontent still

/-- A batch that is written over files succeeds with all of them, in any order, and the contents are
renewed. -/
theorem RunsTo.renews (h : RunsTo tree files outcomes final)
    (hfiles : ∀ file ∈ files, tree.Overwrites file) :
    outcomes = files.map (fun file => ⟨file.path, .ok .written⟩) ∧ tree.Renews files final ∧
      ∀ file ∈ files, ∀ location, tree.spotOf false file.path = .ok (.found location) →
        tree.Renewed files final location := by
  have hstart : (renewing tree files).inv tree := ⟨rfl, fun _ => Or.inl rfl⟩
  have hbears : files.Pairwise fun file other =>
      (renewing tree files).Bears file other ∧ (renewing tree files).Bears other file :=
    List.pairwise_of_forall fun _ _ => ⟨fun _ _ hacts => hacts, fun _ _ hacts => hacts⟩
  obtain ⟨hfinal, hends⟩ := h.settles hstart hbears
    fun file hfile => settles_renewing hfiles hfile
  have hboth : List.Forall₂ (fun (file : GeneratedFile) (outcome : WriteOutcome) =>
      (∀ location, tree.spotOf false file.path = .ok (.found location) →
        tree.Renewed files final location) ∧
      outcome.path = file.path ∧ outcome.result = .ok .written) files outcomes :=
    hends.imp fun _ _ hend => ⟨hend.2.2, hend.1, hend.2.1⟩
  obtain ⟨hrenewed, hsame⟩ := (List.forall₂_and_left _ _).mp hboth
  exact ⟨eq_map_of_forall₂ hsame, hfinal, hrenewed⟩

end WebComponents.Files
