import WebComponents.CommandLine.Command
import WebComponents.Commands.Generate
import WebComponents.Commands.RedirectImports
import WebComponents.Commands.Types
import WebComponents.Project.Basic

/-!
# Running commands

A command changes the file tree and ends with an exit code, a text on the output stream and either a
text or an error on the error stream.  The program asks nobody: where a tag or the kinds of files
are missing, there is no terminal to ask on, and that is the error.
-/

namespace WebComponents.CommandLine

open Files Report Scaffold

/-- What goes to the error stream. -/
inductive Complaint where
  | text (text : String)
  | fault (fault : Project.Fault)
  /-- An error that ends the command, without its causes. -/
  | failure (message : String)
  deriving DecidableEq, Repr

/-- A fault as it is printed. -/
def faultText (fault : Project.Fault) : String :=
  "error: " ++ fault.message ++ "\n" ++
    match fault.help? with
    | some help => "help: " ++ help ++ "\n"
    | none => ""

/-- The complaint as it is printed. -/
def Complaint.printed : Complaint → String
  | .text shown => shown
  | .fault reason => faultText reason
  | .failure reason => "error: " ++ reason ++ "\n"

/-- The end of a run. -/
structure Outcome where
  exitCode : Nat
  output : String
  complaint : Complaint
  deriving DecidableEq, Repr

/-- The end of a run with a report. -/
def Outcome.ofReport (success : Bool) (lines : List Line) : Outcome :=
  ⟨if success then 0 else 1, outputText lines, .text (errorText lines)⟩

/-- The end of a run because of a fault of the project. -/
def Outcome.ofFault (fault : Project.Fault) : Outcome :=
  ⟨1, "", .fault fault⟩

/-- The end of a run because of an error. -/
def Outcome.ofFailure (message : String) : Outcome :=
  ⟨1, "", .failure message⟩

/-- The end of a run with nothing to say. -/
def Outcome.silent (exitCode : Nat) : Outcome :=
  ⟨exitCode, "", .text ""⟩

/-- What is known before a component is generated: the project and the directory of its sources. -/
def openSources (config : Path) (tree : FileTree) : Except Project.Fault (Project × Path) := do
  let project ← Project.openAt tree config
  return (project, ← project.sourceDir)

/-- What is known before imports are redirected: the directory of the declarations. -/
def openTypes (config : Path) (tree : FileTree) : Except Project.Fault Path := do
  let project ← Project.openAt tree config
  project.typesDir

/-- Runs the command that generates a component. -/
def runGenerate (input? : Option String) (kinds? : Option (List FileKind)) (config : Path)
    (tree : FileTree) : Outcome × FileTree :=
  match openSources config tree with
  | .error fault => (.ofFault fault, tree)
  | .ok (project, sourceDir) =>
    match input? with
    | none => (.ofFailure "Failed to read component tag", tree)
    | some input =>
      match Project.checkTag (componentTag input) with
      | .error fault => (.ofFault fault, tree)
      | .ok () =>
        match kinds? with
        | none => (.ofFailure "Failed to get file selection", tree)
        | some kinds =>
          let plan := Plan.ofInput sourceDir input kinds
          match Commands.generate plan input project.rootDir tree with
          | (.ok report, changed) => (.ofReport report.isSuccess report.lines, changed)
          | (.error problem, changed) => (.ofFailure problem.message, changed)

/-- Runs the command that writes type records. -/
def runTypes (metadata : Path) (output? : Option Path) (tree : FileTree) : Outcome × FileTree :=
  match Commands.types metadata output? tree with
  | (.ok report, changed) => (.ofReport true report.lines, changed)
  | (.error error, changed) => (.ofFailure error.message, changed)

/-- Runs the command that redirects the imports of declaration files. -/
def runRedirect (files : List Path) (typings? : Option Path) (config : Path) (tree : FileTree) :
    Outcome × FileTree :=
  match openTypes config tree with
  | .error fault => (.ofFault fault, tree)
  | .ok typesDir =>
    match Commands.redirectImports typesDir files typings? tree with
    | (.ok report, changed) => (.ofReport report.isSuccess report.lines, changed)
    | (.error problem, changed) => (.ofFailure problem.message, changed)

/-- The exit code for words that ask for nothing that the program can do. -/
def unusableCode : Nat := 2

/-- The name and version of the program. -/
def versionText : String := "kiln 0.1.0\n"

/-- What the program can do. -/
def helpText : String :=
  "Scaffold web components and synthesize their type declarations

Usage: kiln <COMMAND>

Commands:
  generate     Generate boilerplate for a new component
  types        Synthesize type records from component metadata
  rewrite-dts  Point framework imports in declaration files at the bundled core typings
  completions  Generate shell completions
  help         Print this message or the help of the given subcommand(s)

Options:
  -h, --help     Print help
  -V, --version  Print version
"

/-- Runs the program with the words after its name. -/
def run (words : List String) (tree : FileTree) : Outcome × FileTree :=
  match Invocation.ofWords words with
  | .unusable => (.silent unusableCode, tree)
  | .help => (⟨0, helpText, .text ""⟩, tree)
  | .version => (⟨0, versionText, .text ""⟩, tree)
  | .command (.generate input? kinds? config) => runGenerate input? kinds? config tree
  | .command (.types metadata output?) => runTypes metadata output? tree
  | .command (.redirectImports files typings? config) => runRedirect files typings? config tree
  | .command (.completions _) => (.silent 0, tree)

end WebComponents.CommandLine
