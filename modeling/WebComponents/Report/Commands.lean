import WebComponents.Path.Basic
import WebComponents.Report.Basic

/-!
# The reports of the commands
-/

namespace WebComponents.Report

/-- A file that could not be written, and why. -/
structure FailedFile where
  path : Path
  error : String
  deriving DecidableEq, Repr

/-! ## Generating a component -/

/-- What became of a component's files. -/
inductive GenerateResult where
  | written (paths : List Path)
  /-- Some of the files were there, so nothing was written. -/
  | existing (paths : List Path)
  | failed (written : List Path) (failures : List FailedFile)
  deriving DecidableEq, Repr

/-- The report on a generated component. -/
structure GenerateReport where
  input : String
  result : GenerateResult
  deriving DecidableEq, Repr

/-- Whether all files were written. -/
def GenerateReport.isSuccess (report : GenerateReport) : Bool :=
  match report.result with
  | .written _ => true
  | _ => false

/-- The report in lines. -/
def GenerateReport.lines (report : GenerateReport) : List Line :=
  match report.result with
  | .written paths =>
    [.verbatim ("$ kiln generate " ++ report.input), .blank,
      .heading "The following files have been generated"] ++
      paths.map fun path => .item path.text
  | .existing paths =>
    [.error ("generating code would overwrite the following files:\n" ++
      String.intercalate "\n" (paths.map fun path => "  - " ++ path.text))]
  | .failed written failures =>
    (failures.map fun failure =>
      .error ("failed to write " ++ failure.path.text ++ ": " ++ failure.error)) ++
      written.map fun path => .warning ("left in place: " ++ path.text)

/-! ## Redirecting imports -/

/-- The report on declaration files whose imports were redirected. -/
structure RedirectReport where
  changed : List Path
  unchanged : Nat
  typings? : Option Path
  failures : List FailedFile
  deriving DecidableEq, Repr

/-- Whether no file failed. -/
def RedirectReport.isSuccess (report : RedirectReport) : Bool :=
  report.failures.isEmpty

/-- The report in lines. -/
def RedirectReport.lines (report : RedirectReport) : List Line :=
  (report.failures.map fun failure => .error (failure.path.text ++ ": " ++ failure.error)) ++
    (if report.changed.isEmpty then []
      else .heading "Rewritten" :: report.changed.map fun path => .item path.text) ++
    [.pair "Unchanged" (toString report.unchanged)] ++
    report.typings?.toList.map fun path => .pair "Core typings" path.text

/-! ## Writing type records -/

/-- Where the type records went. -/
inductive TypesDestination where
  | output (text : String)
  | file (path : Path)
  deriving DecidableEq, Repr

/-- The report on type records. -/
structure TypesReport where
  componentCount : Nat
  renamedCount : Nat
  destination : TypesDestination
  deriving DecidableEq, Repr

/-- The report in lines. -/
def TypesReport.lines (report : TypesReport) : List Line :=
  match report.destination with
  | .output text => [.verbatim text]
  | .file path =>
    .verbatim ("✓ wrote types for " ++ toString report.componentCount ++ " component" ++
      (if report.componentCount = 1 then "" else "s") ++ " to " ++ path.text) ::
      if 0 < report.renamedCount then
        [.pair "  renamed identifiers" (toString report.renamedCount)]
      else []

end WebComponents.Report
