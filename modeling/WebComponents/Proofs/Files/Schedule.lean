import Mathlib.Logic.Relation
import WebComponents.Files.Write

/-!
# Batches in any order

The files of a batch may be written at the same time.  The write of a file is a *job*: it looks at
the tree and operates on it several times, and each time the tree is as all jobs of the batch have
left it by then.

```text
a.tsx     look                  make directories             write
a.css             look                              write
```

`BatchStep` lets one job take its next step, and `RunsTo` is what a batch may come to in this way.
Writing one file after the other is one of them (`runsTo_writeAll`).

A job that keeps a property of the tree by itself (`Job.Keeps`) keeps it between the steps of others
that do, so all ends of a batch have it (`RunsTo.keeps`).
-/

namespace WebComponents.Files

/-! ## Jobs -/

/-- What a file's write does next, by what it has found so far. -/
inductive Job where
  | done (result : Except Problem WriteResult)
  | look (question : FileTree → Bool) (next : Bool → Job)
  | act (operation : FileTree → Except SystemError FileTree)
      (next : Except SystemError Unit → Job)

namespace Job

/-- The next step of a job that has not ended. -/
def step? (tree : FileTree) : Job → Option (FileTree × Job)
  | done _ => none
  | look question next => some (tree, next (question tree))
  | act operation next =>
    match operation tree with
    | .ok later => some (later, next (.ok ()))
    | .error cause => some (tree, next (.error cause))

/-- All steps of a job, with nothing in between. -/
def run (tree : FileTree) : Job → Except Problem WriteResult × FileTree
  | done result => (result, tree)
  | look question next => (next (question tree)).run tree
  | act operation next =>
    match operation tree with
    | .ok later => (next (.ok ())).run later
    | .error cause => (next (.error cause)).run tree

/-- Makes directories as `FileTree.makeDirectories` does, and goes on with the result. -/
def makeDirectories : List Path → (Except SystemError Unit → Job) → Job
  | [], next => next (.ok ())
  | path :: above, next =>
    let whether (cause : SystemError) : Job :=
      look (·.isDirectory path) fun there => next (if there then .ok () else .error cause)
    act (·.makeDirectory path) fun
      | .ok () => next (.ok ())
      | .error .notFound =>
        makeDirectories above fun
          | .error cause => next (.error cause)
          | .ok () =>
            act (·.makeDirectory path) fun
              | .ok () => next (.ok ())
              | .error cause => whether cause
      | .error cause => whether cause

/-- Writes a file whose directory is there. -/
def writeContent (path : Path) (content : String) : Job :=
  act (·.writeText path content) fun
    | .ok () => done (.ok .written)
    | .error cause => done (.error ⟨.write, path, cause⟩)

/-- Writes a file together with the directories above it. -/
def writeThrough (path : Path) (content : String) : Job :=
  match path.parent? with
  | none => writeContent path content
  | some above =>
    if above.text = "" then writeContent path content
    else
      makeDirectories above.ancestors fun
        | .ok () => writeContent path content
        | .error cause => done (.error ⟨.createDirectory, above, cause⟩)

end Job

/-- The write of a generated file by its rule. -/
def GeneratedFile.job (file : GeneratedFile) : Job :=
  match file.overwrite with
  | .always => .writeThrough file.path file.content
  | .ifMissing =>
    .look (·.holds file.path) fun there =>
      if there then .done (.ok .skipped) else .writeThrough file.path file.content

/-! ## A job on its own -/

variable {tree : FileTree}

theorem Job.run_makeDirectories (tree : FileTree) (paths : List Path)
    (next : Except SystemError Unit → Job) :
    (makeDirectories paths next).run tree =
      (next (tree.makeDirectories paths).1).run (tree.makeDirectories paths).2 := by
  induction paths generalizing tree next with
  | nil => rfl
  | cons path above ih =>
      unfold makeDirectories FileTree.makeDirectories
      cases hfirst : tree.makeDirectory path with
      | ok made => simp only [run, hfirst]
      | error cause =>
          simp only [run, hfirst]
          by_cases hmissing : cause = .notFound
          · subst hmissing
            simp only [ih]
            rcases tree.makeDirectories above with ⟨_ | _, made⟩
            · rfl
            · cases hsecond : made.makeDirectory path <;> simp only [run, hsecond]
          · cases cause with
            | notFound => exact absurd rfl hmissing
            | _ => rfl

theorem Job.run_writeContent (tree : FileTree) (path : Path) (content : String) :
    (writeContent path content).run tree =
      ((Files.writeContent tree path content).1.map fun _ => .written,
        (Files.writeContent tree path content).2) := by
  unfold writeContent Files.writeContent
  cases hwrite : tree.writeText path content <;> simp only [run, hwrite] <;> rfl

theorem Job.run_writeThrough (tree : FileTree) (path : Path) (content : String) :
    (writeThrough path content).run tree =
      ((Files.writeThrough tree path content).1.map fun _ => .written,
        (Files.writeThrough tree path content).2) := by
  unfold writeThrough Files.writeThrough createParents FileTree.createDirectories
  cases hparent : path.parent? with
  | none => exact run_writeContent tree path content
  | some above =>
      by_cases hempty : above.text = ""
      · simp only [if_pos hempty]
        exact run_writeContent tree path content
      · simp only [if_neg hempty, run_makeDirectories]
        rcases tree.makeDirectories above.ancestors with ⟨_ | _, made⟩
        · rfl
        · exact run_writeContent made path content

/-- The steps of a job, one after the other, are the write of the file. -/
theorem GeneratedFile.run_job (file : GeneratedFile) (tree : FileTree) :
    file.job.run tree = file.write tree := by
  unfold GeneratedFile.job GeneratedFile.write
  cases hrule : file.overwrite with
  | always =>
      rw [if_neg (by simp)]
      exact Job.run_writeThrough tree file.path file.content
  | ifMissing =>
      cases hlook : tree.holds file.path with
      | true => simp [Job.run, hlook]
      | false =>
          simp only [Job.run, hlook]
          exact Job.run_writeThrough tree file.path file.content

/-! ## The jobs of a batch -/

/-- One job of a batch takes its next step. -/
inductive BatchStep : FileTree × List Job → FileTree × List Job → Prop
  | first {tree later job next jobs} (h : job.step? tree = some (later, next)) :
      BatchStep (tree, job :: jobs) (later, next :: jobs)
  | other {tree later job jobs nexts} (h : BatchStep (tree, jobs) (later, nexts)) :
      BatchStep (tree, job :: jobs) (later, job :: nexts)

/-- What a batch may come to: the jobs of its files, one step of one job at a time, end with these
results and leave this tree. -/
def RunsTo (tree : FileTree) (files : List GeneratedFile) (outcomes : List WriteOutcome)
    (final : FileTree) : Prop :=
  outcomes.map (·.path) = files.map (·.path) ∧
    Relation.ReflTransGen BatchStep (tree, files.map (·.job))
      (final, outcomes.map fun outcome => .done outcome.result)

theorem batchSteps_run (tree : FileTree) (job : Job) (jobs : List Job) :
    Relation.ReflTransGen BatchStep (tree, job :: jobs)
      ((job.run tree).2, .done (job.run tree).1 :: jobs) := by
  induction job generalizing tree with
  | done result => exact .refl
  | look question next ih => exact .head (.first rfl) (ih (question tree) tree)
  | act operation next ih =>
      cases hoperation : operation tree with
      | ok later =>
          have hstep : (Job.act operation next).step? tree = some (later, next (.ok ())) := by
            simp only [Job.step?, hoperation]
          simp only [Job.run, hoperation]
          exact .head (.first hstep) (ih (.ok ()) later)
      | error cause =>
          have hstep : (Job.act operation next).step? tree = some (tree, next (.error cause)) := by
            simp only [Job.step?, hoperation]
          simp only [Job.run, hoperation]
          exact .head (.first hstep) (ih (.error cause) tree)

/-- One file after the other is one of the ways. -/
theorem runsTo_writeAll (tree : FileTree) (files : List GeneratedFile) :
    RunsTo tree files (writeAll tree files).1 (writeAll tree files).2 := by
  induction files generalizing tree with
  | nil => exact ⟨rfl, .refl⟩
  | cons file files ih =>
      obtain ⟨hpaths, hsteps⟩ := ih (file.write tree).2
      refine ⟨congrArg (file.path :: ·) hpaths, ?_⟩
      have hfirst := batchSteps_run tree file.job (files.map (·.job))
      rw [file.run_job] at hfirst
      refine hfirst.trans ?_
      let ended := Job.done (file.write tree).1
      exact hsteps.lift (fun state : FileTree × List Job => (state.1, ended :: state.2))
        fun _ _ hstep => .other hstep

/-! ## Properties that jobs keep -/

variable {inv : FileTree → Prop} {job next : Job} {jobs nexts : List Job} {later : FileTree}

/-- From a tree with the property, each step of the job leads to such a tree, whatever other jobs
with this promise have done since the step before. -/
def Job.Keeps (inv : FileTree → Prop) : Job → Prop
  | done _ => True
  | look question next => ∀ tree, inv tree → (next (question tree)).Keeps inv
  | act operation next => ∀ tree, inv tree →
    (∀ later, operation tree = .ok later → inv later ∧ (next (.ok ())).Keeps inv) ∧
    ∀ cause, operation tree = .error cause → (next (.error cause)).Keeps inv

theorem Job.Keeps.step (hjob : job.Keeps inv) (hinv : inv tree)
    (h : job.step? tree = some (later, next)) : inv later ∧ next.Keeps inv := by
  cases job with
  | done result => cases h
  | look question after =>
      cases h
      exact ⟨hinv, hjob tree hinv⟩
  | act operation after =>
      obtain ⟨hok, herror⟩ := hjob tree hinv
      simp only [step?] at h
      cases hoperation : operation tree with
      | ok made =>
          rw [hoperation] at h
          cases h
          exact hok later hoperation
      | error cause =>
          rw [hoperation] at h
          cases h
          exact ⟨hinv, herror cause hoperation⟩

theorem BatchStep.keeps (h : BatchStep (tree, jobs) (later, nexts)) (hinv : inv tree)
    (hjobs : ∀ job ∈ jobs, job.Keeps inv) : inv later ∧ ∀ job ∈ nexts, job.Keeps inv := by
  generalize hstart : (tree, jobs) = start at h
  generalize hend : (later, nexts) = stop at h
  induction h generalizing tree jobs later nexts with
  | first h =>
      cases hstart
      cases hend
      obtain ⟨hjob, hrest⟩ := List.forall_mem_cons.mp hjobs
      obtain ⟨hlater, hnext⟩ := hjob.step hinv h
      exact ⟨hlater, List.forall_mem_cons.mpr ⟨hnext, hrest⟩⟩
  | other _ ih =>
      cases hstart
      cases hend
      obtain ⟨hjob, hrest⟩ := List.forall_mem_cons.mp hjobs
      obtain ⟨hlater, hnexts⟩ := ih hinv hrest rfl rfl
      exact ⟨hlater, List.forall_mem_cons.mpr ⟨hjob, hnexts⟩⟩

theorem batchSteps_keeps {start stop : FileTree × List Job}
    (h : Relation.ReflTransGen BatchStep start stop) (hinv : inv start.1)
    (hjobs : ∀ job ∈ start.2, job.Keeps inv) : inv stop.1 ∧ ∀ job ∈ stop.2, job.Keeps inv := by
  induction h with
  | refl => exact ⟨hinv, hjobs⟩
  | tail _ hstep ih => exact hstep.keeps ih.1 ih.2

/-- However a batch runs, its end has the property that all its jobs keep. -/
theorem RunsTo.keeps {files : List GeneratedFile} {outcomes : List WriteOutcome} {final : FileTree}
    (h : RunsTo tree files outcomes final) (hinv : inv tree)
    (hjobs : ∀ file ∈ files, file.job.Keeps inv) : inv final := by
  have hall : ∀ job ∈ files.map (·.job), job.Keeps inv := by
    intro job hjob
    obtain ⟨file, hfile, rfl⟩ := List.mem_map.mp hjob
    exact hjobs file hfile
  exact (batchSteps_keeps h.2 hinv hall).1

end WebComponents.Files
