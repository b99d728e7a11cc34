import Mathlib.Data.List.Forall2
import WebComponents.Proofs.Files.Schedule

/-!
# What the jobs of a batch come to

A job sees the tree as the other jobs of its batch leave it between two of its own steps.  What it
comes to in spite of them is said by a `Protocol`:

```text
inv      what is true of every tree of the run
rely     how the tree may change between two steps of a file's job
acts     how a step of a file's job may change the tree
ends     what is true of a file's result, and of the tree, from the end of its job on
```

A job that *settles* keeps to the protocol whatever the others do, as long as they leave it what it
relies on (`Job.Settles`).  If all jobs of a batch settle, and what each one does is what the others
can bear (`Protocol.Bears`), then every end of the batch is as the protocol says
(`RunsTo.settles`).
-/

namespace WebComponents.Files

/-- The terms on which the jobs of a batch share a tree. -/
structure Protocol where
  inv : FileTree → Prop
  rely : GeneratedFile → FileTree → FileTree → Prop
  acts : GeneratedFile → FileTree → FileTree → Prop
  ends : GeneratedFile → Except Problem WriteResult → FileTree → Prop
  rely_refl : ∀ file tree, rely file tree tree
  rely_trans : ∀ {file tree between later}, rely file tree between → rely file between later →
    rely file tree later
  ends_of_rely : ∀ {file result tree later}, ends file result tree → rely file tree later →
    ends file result later

namespace Protocol

/-- What the one file's job does to the tree, the other file's job can bear. -/
def Bears (protocol : Protocol) (file other : GeneratedFile) : Prop :=
  ∀ tree later, protocol.acts file tree later → protocol.rely other tree later

end Protocol

variable {protocol : Protocol} {file : GeneratedFile} {files : List GeneratedFile}
  {job next : Job} {jobs nexts : List Job} {tree later : FileTree}

/-- The rest of a file's job, last at work on the given tree, keeps to the protocol. -/
def Job.Settles (protocol : Protocol) (file : GeneratedFile) : Job → FileTree → Prop
  | done result, now => protocol.ends file result now
  | look question next, now => ∀ tree, protocol.inv tree → protocol.rely file now tree →
    (next (question tree)).Settles protocol file tree
  | act operation next, now => ∀ tree, protocol.inv tree → protocol.rely file now tree →
    (∀ later, operation tree = .ok later → protocol.inv later ∧ protocol.acts file tree later ∧
      (next (.ok ())).Settles protocol file later) ∧
    ∀ cause, operation tree = .error cause → (next (.error cause)).Settles protocol file tree

/-- An operation settles when on every tree that it may find it is known what it does. -/
theorem Job.settles_act {operation : FileTree → Except SystemError FileTree}
    {next : Except SystemError Unit → Job}
    (h : ∀ now, protocol.inv now → protocol.rely file tree now →
      (∃ cause, operation now = .error cause ∧
        (next (.error cause)).Settles protocol file now) ∨
      ∃ later, operation now = .ok later ∧ protocol.inv later ∧ protocol.acts file now later ∧
        (next (.ok ())).Settles protocol file later) :
    (Job.act operation next).Settles protocol file tree := by
  intro now hnow hrely
  rcases h now hnow hrely with ⟨cause, herror, hnext⟩ | ⟨later, hok, hlater, hacts, hnext⟩
  · refine ⟨fun made hmade => ?_, fun other hother => ?_⟩
    · cases herror.symm.trans hmade
    · cases herror.symm.trans hother
      exact hnext
  · refine ⟨fun made hmade => ?_, fun other hother => ?_⟩
    · cases hok.symm.trans hmade
      exact ⟨hlater, hacts, hnext⟩
    · cases hok.symm.trans hother

/-- A job bears what it relies on. -/
theorem Job.Settles.of_rely (h : job.Settles protocol file tree)
    (hrely : protocol.rely file tree later) : job.Settles protocol file later := by
  cases job with
  | done result => exact protocol.ends_of_rely h hrely
  | look question next =>
      exact fun between hinv hlater => h between hinv (protocol.rely_trans hrely hlater)
  | act operation next =>
      exact fun between hinv hlater => h between hinv (protocol.rely_trans hrely hlater)

theorem Job.Settles.step (h : job.Settles protocol file tree) (hinv : protocol.inv tree)
    (hstep : job.step? tree = some (later, next)) :
    protocol.inv later ∧ next.Settles protocol file later ∧
      (later = tree ∨ protocol.acts file tree later) := by
  cases job with
  | done result => cases hstep
  | look question after =>
      cases hstep
      exact ⟨hinv, h tree hinv (protocol.rely_refl file tree), Or.inl rfl⟩
  | act operation after =>
      obtain ⟨hok, herror⟩ := h tree hinv (protocol.rely_refl file tree)
      simp only [step?] at hstep
      cases hoperation : operation tree with
      | ok made =>
          rw [hoperation] at hstep
          cases hstep
          obtain ⟨hlater, hacts, hnext⟩ := hok later hoperation
          exact ⟨hlater, hnext, Or.inr hacts⟩
      | error cause =>
          rw [hoperation] at hstep
          cases hstep
          exact ⟨hinv, herror cause hoperation, Or.inl rfl⟩

/-- A step of the batch is a step of one of its files, and the jobs of all others bear it. -/
theorem BatchStep.settles (h : BatchStep (tree, jobs) (later, nexts)) (hinv : protocol.inv tree)
    (hbears : files.Pairwise fun file other =>
      protocol.Bears file other ∧ protocol.Bears other file)
    (hjobs : List.Forall₂ (fun file job => job.Settles protocol file tree) files jobs) :
    protocol.inv later ∧
      List.Forall₂ (fun file job => job.Settles protocol file later) files nexts ∧
      (later = tree ∨ ∃ file ∈ files, protocol.acts file tree later) := by
  generalize hstart : (tree, jobs) = start at h
  generalize hend : (later, nexts) = stop at h
  induction h generalizing files tree jobs later nexts with
  | first hstep =>
      cases hstart
      cases hend
      cases hjobs with
      | cons hjob hjobs =>
          obtain ⟨hfirst, _⟩ := List.pairwise_cons.mp hbears
          obtain ⟨hlater, hnext, hacts⟩ := hjob.step hinv hstep
          -- the first file moves, and all the others bear it
          refine ⟨hlater, .cons hnext ?_, hacts.imp_right fun hacts => ⟨_, by simp, hacts⟩⟩
          rcases hacts with rfl | hacts
          · exact hjobs
          · refine List.forall₂_iff_get.mpr ⟨hjobs.length_eq, fun i hi hi' => ?_⟩
            have hother := (hfirst _ (List.get_mem _ ⟨i, hi⟩)).1 _ _ hacts
            exact (hjobs.get hi hi').of_rely hother
  | other hstep ih =>
      cases hstart
      cases hend
      cases hjobs with
      | cons hjob hjobs =>
          obtain ⟨hfirst, hrest⟩ := List.pairwise_cons.mp hbears
          obtain ⟨hlater, hnexts, hacts⟩ := ih hinv hrest hjobs rfl rfl
          -- one of the others moves, and the first file bears it
          refine ⟨hlater, .cons ?_ hnexts, ?_⟩
          · rcases hacts with rfl | ⟨mover, hmover, hacts⟩
            · exact hjob
            · exact hjob.of_rely ((hfirst mover hmover).2 _ _ hacts)
          · exact hacts.imp_right fun ⟨mover, hmover, hacts⟩ =>
              ⟨mover, List.mem_cons_of_mem _ hmover, hacts⟩

private theorem forall₂_path_and {outcomes : List WriteOutcome}
    {ends : GeneratedFile → WriteOutcome → Prop}
    (hpaths : outcomes.map (·.path) = files.map (·.path)) (h : List.Forall₂ ends files outcomes) :
    List.Forall₂ (fun file outcome => outcome.path = file.path ∧ ends file outcome) files
      outcomes := by
  induction h with
  | nil => exact .nil
  | cons hends _ ih =>
      obtain ⟨hpath, hpaths⟩ := List.cons.inj hpaths
      exact .cons ⟨hpath, hends⟩ (ih hpaths)

/-- Outcomes that are known file by file. -/
theorem eq_map_of_forall₂ {outcomes : List WriteOutcome}
    {result : GeneratedFile → Except Problem WriteResult}
    (h : List.Forall₂ (fun (file : GeneratedFile) (outcome : WriteOutcome) =>
      outcome.path = file.path ∧ outcome.result = result file) files outcomes) :
    outcomes = files.map fun file => ⟨file.path, result file⟩ := by
  induction h with
  | nil => rfl
  | @cons file outcome _ _ houtcome _ ih =>
      rw [List.map_cons, ih]
      cases outcome
      exact congrArg (· :: _) (congrArg₂ WriteOutcome.mk houtcome.1 houtcome.2)

/-- Whenever all jobs of a batch settle, each file's result and the final tree are as the protocol
says. -/
theorem RunsTo.settles {outcomes : List WriteOutcome} {final : FileTree}
    (h : RunsTo tree files outcomes final) (hinv : protocol.inv tree)
    (hbears : files.Pairwise fun file other =>
      protocol.Bears file other ∧ protocol.Bears other file)
    (hjobs : ∀ file ∈ files, file.job.Settles protocol file tree) :
    protocol.inv final ∧ List.Forall₂ (fun file outcome =>
      outcome.path = file.path ∧ protocol.ends file outcome.result final) files outcomes := by
  obtain ⟨hpaths, hsteps⟩ := h
  have hstart : List.Forall₂ (fun file job => job.Settles protocol file tree) files
      (files.map (·.job)) := List.forall₂_map_right_iff.mpr (List.forall₂_same.mpr hjobs)
  have hall : ∀ {stop : FileTree × List Job},
      Relation.ReflTransGen BatchStep (tree, files.map (·.job)) stop →
        protocol.inv stop.1 ∧
          List.Forall₂ (fun file job => job.Settles protocol file stop.1) files stop.2 := by
    intro stop hstop
    induction hstop with
    | refl => exact ⟨hinv, hstart⟩
    | tail _ hstep ih =>
        obtain ⟨hlater, hnexts, _⟩ := hstep.settles ih.1 hbears ih.2
        exact ⟨hlater, hnexts⟩
  obtain ⟨hfinal, hdone⟩ := hall hsteps
  exact ⟨hfinal, forall₂_path_and hpaths (List.forall₂_map_right_iff.mp hdone)⟩

end WebComponents.Files
