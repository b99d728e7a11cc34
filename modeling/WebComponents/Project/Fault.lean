import WebComponents.Files.SystemError
import WebComponents.Path.Basic
import WebComponents.Tag

/-!
# Faults of a project

What keeps a command from starting, with a code for each kind and, for most, advice for the user.
-/

namespace WebComponents.Project

open Files

/-- A fault of the configuration or of the tag that was asked for. -/
inductive Fault where
  /-- No configuration file. -/
  | notProjectRoot (path : Path)
  /-- A configuration file that cannot be read. -/
  | unreadable (path : Path) (cause : SystemError)
  /-- A configuration file of the wrong form. -/
  | malformed
  | missingSourceDir (path : Path)
  | missingTypesDir (path : Path)
  | invalidTag (tag : String) (fault : Tag.Fault)
  deriving DecidableEq, Repr

namespace Fault

/-- The fault in words. -/
def message : Fault → String
  | .notProjectRoot path => "no kiln.toml found at '" ++ path.text ++ "'"
  | .unreadable path _ => "failed to read '" ++ path.text ++ "'"
  | .malformed => "failed to parse kiln.toml"
  | .missingSourceDir _ => "the project's source directory was not specified"
  | .missingTypesDir _ => "the project's types directory was not specified"
  | .invalidTag tag fault => fault.message tag

/-- The code of the fault. -/
def code? : Fault → Option String
  | .notProjectRoot _ => some "kiln::not_project_root"
  | .unreadable _ _ => none
  | .malformed => some "kiln::parse_error"
  | .missingSourceDir _ => some "kiln::missing_src_dir"
  | .missingTypesDir _ => some "kiln::missing_types_dir"
  | .invalidTag _ _ => some "kiln::invalid_tag"

/-- What the user can do about the fault. -/
def help? : Fault → Option String
  | .notProjectRoot _ =>
    some "run this command in your project's root directory (the one containing kiln.toml)"
  | .unreadable _ _ => none
  | .malformed => none
  | .missingSourceDir path =>
    some ("add `src_dir = \"src\"` to the [project] table of " ++ path.text)
  | .missingTypesDir path =>
    some ("add `types_dir = \"dist/types\"` to the [project] table of " ++ path.text)
  | .invalidTag _ _ => some "component tags are dash-case, e.g. 'my-button'"

end Fault

/-- Accepts a tag without a fault. -/
def checkTag (tag : String) : Except Fault Unit :=
  match Tag.fault? tag with
  | none => .ok ()
  | some fault => .error (.invalidTag tag fault)

end WebComponents.Project
