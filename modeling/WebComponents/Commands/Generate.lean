import WebComponents.Files.Write
import WebComponents.Path.Lexical
import WebComponents.Report.Commands
import WebComponents.Scaffold.Plan

/-!
# Generating a component

First the directories of the component are made; then, if one of its files is already there, nothing
is written at all; and each file is still created only if it is missing when its turn comes.
-/

namespace WebComponents.Commands

open Files Report Scaffold

/-- A file of the plan, to be created once. -/
def plannedFile (plan : Plan) (kind : FileKind) : GeneratedFile :=
  ⟨plan.path kind, plan.content kind, .ifMissing⟩

/-- The files of the plan. -/
def plannedFiles (plan : Plan) : List GeneratedFile :=
  plan.kinds.map (plannedFile plan)

/-- The planned paths at which something is. -/
def existingFiles (plan : Plan) (tree : FileTree) : List Path :=
  (plan.files.map (·.2)).filter fun path => tree.holds path

/-- Makes the given directories, up to the first that fails. -/
def makeAll (tree : FileTree) : List Path → Except Problem Unit × FileTree
  | [] => (.ok (), tree)
  | directory :: directories =>
    match tree.createDirectories directory with
    | (.ok (), made) => makeAll made directories
    | (.error cause, made) => (.error ⟨.createDirectory, directory, cause⟩, made)

/-- Makes the directories of the plan. -/
def createPlanned (plan : Plan) (tree : FileTree) : Except Problem Unit × FileTree :=
  makeAll tree plan.directories

/-- Writes the files of the plan. -/
def writePlanned (plan : Plan) (tree : FileTree) : List WriteOutcome × FileTree :=
  writeAll tree (plannedFiles plan)

/-- The reason why a planned file was left alone. -/
def appearedMessage : String := "appeared after the overwrite check; left untouched"

/-- The failure that an outcome reports, if it does. -/
def failureOf? (root : Path) (outcome : WriteOutcome) : Option FailedFile :=
  match outcome.result with
  | .ok .written => none
  | .ok .skipped => some ⟨root.relative outcome.path, appearedMessage⟩
  | .error problem => some ⟨root.relative outcome.path, problem.fullMessage⟩

/-- The result that the outcomes of a plan amount to. -/
def resultOf (root : Path) (outcomes : List WriteOutcome) : GenerateResult :=
  let written := (outcomes.filter (·.isWritten)).map fun outcome => root.relative outcome.path
  let failures := outcomes.filterMap (failureOf? root)
  if failures.isEmpty then .written written else .failed written failures

/-- Generates the files of the plan; paths are reported from the directory `root`. -/
def generate (plan : Plan) (input : String) (root : Path) (tree : FileTree) :
    Except Problem GenerateReport × FileTree :=
  match createPlanned plan tree with
  | (.error problem, made) => (.error problem, made)
  | (.ok (), made) =>
    let existing := existingFiles plan made
    -- one file that is there keeps all the others from being written
    if existing.isEmpty then
      let (outcomes, written) := writePlanned plan made
      (.ok ⟨input, resultOf root outcomes⟩, written)
    else
      (.ok ⟨input, .existing (existing.map root.relative)⟩, made)

end WebComponents.Commands
