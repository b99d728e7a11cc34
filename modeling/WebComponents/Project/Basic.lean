import WebComponents.Files.FileTree
import WebComponents.Path.Lexical
import WebComponents.Project.Config
import WebComponents.Project.Fault
import WebComponents.Text.Blank

/-!
# Projects

A project is opened by its configuration file and lies in the directory of that file.  The
directories that the configuration names are read from there; a blank name counts as none.
-/

namespace WebComponents

/-- An opened project. -/
structure Project where
  /-- The configuration file, from the root. -/
  file : Path
  config : Project.Config
  deriving DecidableEq, Repr

namespace Project

open Files

/-- Opens the project with the given configuration file. -/
def openAt (tree : FileTree) (path : Path) : Except Fault Project := do
  match path.absolute? tree.workPath with
  | none => .error (.unreadable path .emptyPath)
  | some file =>
    match tree.readText file with
    | .error .notFound => .error (.notProjectRoot file)
    | .error cause => .error (.unreadable file cause)
    | .ok text =>
      match Config.ofText? text with
      | none => .error .malformed
      | some config => .ok ⟨file, config⟩

/-- The directory of the project. -/
def rootDir (project : Project) : Path :=
  project.file.parent?.getD ⟨"/"⟩

/-- The directory that a text of the configuration names. -/
def directory? (project : Project) (text? : Option String) : Option Path :=
  match (text?.map String.toList).map Text.trim with
  | none | some [] => none
  | some text => some (project.rootDir.resolve ⟨String.ofList text⟩)

/-- The directory with the sources. -/
def sourceDir (project : Project) : Except Fault Path :=
  match project.directory? project.config.sourceDir? with
  | some directory => .ok directory
  | none => .error (.missingSourceDir project.file)

/-- The directory with the declarations. -/
def typesDir (project : Project) : Except Fault Path :=
  match project.directory? project.config.typesDir? with
  | some directory => .ok directory
  | none => .error (.missingTypesDir project.file)

end Project

end WebComponents
