import WebComponents.Files.Write
import WebComponents.Report.Commands
import WebComponents.Typings.Framework

/-!
# Redirecting imports

All files are read first, then those whose imports change are written, and last the framework's
typings are copied.  A file that cannot be read or written is a line of the report; only typings
that cannot be read end the command.
-/

namespace WebComponents.Commands

open Files Report

/-- The text that a declaration file is to have. -/
inductive Redirection where
  | unchanged
  | changed (file : GeneratedFile)
  deriving DecidableEq, Repr

/-- Reads a declaration file and redirects its imports. -/
def readAndRedirect (typesDir : Path) (tree : FileTree) (path : Path)
    (strays : Text.Strays := .none) : Except Problem Redirection := do
  match path.absolute? tree.workPath with
  | none => .error ⟨.makeAbsolute, path, .emptyPath⟩
  | some file =>
    let content ← (tree.readText file).mapError fun cause => ⟨.read, file, cause⟩
    let redirected := Typings.redirect typesDir file content strays
    return if redirected = content then .unchanged else .changed ⟨file, redirected, .always⟩

/-- Copies the framework's typings into the directories. -/
def copyTypings (typings : Path) (typesDirs : List Path) (tree : FileTree) :
    Except Problem (List WriteOutcome) × FileTree :=
  match tree.readText typings with
  | .error cause => (.error ⟨.readTypings, typings, cause⟩, tree)
  | .ok content =>
    let (outcomes, written) := writeAll tree
      (typesDirs.map fun directory => ⟨Typings.typingsPath directory, content, .always⟩)
    (.ok outcomes, written)

/-- The failures among outcomes. -/
def failedFiles (outcomes : List WriteOutcome) : List FailedFile :=
  outcomes.filterMap fun outcome =>
    match outcome.result with
    | .ok _ => none
    | .error problem => some ⟨outcome.path, problem.fullMessage⟩

/-- The paths of the outcomes that are no failures. -/
def donePaths (outcomes : List WriteOutcome) : List Path :=
  outcomes.filterMap fun outcome =>
    match outcome.result with
    | .ok _ => some outcome.path
    | .error _ => none

/-- The files that cannot be read. -/
def unreadable (results : List (Path × Except Problem Redirection)) : List FailedFile :=
  results.filterMap fun (path, result) =>
    match result with
    | .error problem => some ⟨path, problem.fullMessage⟩
    | .ok _ => none

/-- The files that are to be written. -/
def pendingFiles (results : List (Path × Except Problem Redirection)) : List GeneratedFile :=
  results.filterMap fun (_, result) =>
    match result with
    | .ok (.changed file) => some file
    | _ => none

/-- The number of files that stay as they are. -/
def unchangedCount (results : List (Path × Except Problem Redirection)) : Nat :=
  results.countP fun (_, result) =>
    match result with
    | .ok .unchanged => true
    | _ => false

/-- Redirects the imports of the framework in declaration files and copies its typings. -/
def redirectImports (typesDir : Path) (files : List Path) (typings? : Option Path)
    (tree : FileTree) (strays : Text.Strays := .none) : Except Problem RedirectReport × FileTree :=
  let results := files.map fun path => (path, readAndRedirect typesDir tree path strays)
  let (outcomes, written) := writeAll tree (pendingFiles results)
  let failures := unreadable results ++ failedFiles outcomes
  let report typings? failures : RedirectReport :=
    ⟨donePaths outcomes, unchangedCount results, typings?, failures⟩
  -- from here on the declaration files have their new texts
  match typings? with
  | none => (.ok (report none failures), written)
  | some typings =>
    match copyTypings typings [typesDir] written with
    | (.error problem, final) => (.error problem, final)
    | (.ok copies, final) =>
      (.ok (report (donePaths copies).getLast? (failures ++ failedFiles copies)), final)

end WebComponents.Commands
