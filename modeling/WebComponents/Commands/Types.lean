import WebComponents.Files.Write
import WebComponents.Metadata.Decode
import WebComponents.Records.Synthesis
import WebComponents.Report.Commands

/-!
# Writing type records

The metadata of all components is read from one file, and their records are written to another one
or shown.
-/

namespace WebComponents.Commands

open Files Report

/-- Why there are no type records. -/
inductive TypesError where
  | file (problem : Problem)
  | metadata (path : Path) (error : Json.Error)

/-- The error in words, without its cause. -/
def TypesError.message : TypesError → String
  | .file problem => problem.message
  | .metadata path _ => "Failed to parse component metadata in " ++ path.text

/-- The components that a metadata file describes. -/
def readMetadata (tree : FileTree) (path : Path) :
    Except TypesError (List Metadata.Component) := do
  let text ← (tree.readText path).mapError fun cause => .file ⟨.read, path, cause⟩
  (Metadata.readComponents text).mapError fun error => .metadata path error

/-- Makes the records of the components in a metadata file, and writes them to the file `output?` if
there is one. -/
def types (metadata : Path) (output? : Option Path) (tree : FileTree) :
    Except TypesError TypesReport × FileTree :=
  match readMetadata tree metadata with
  | .error error => (.error error, tree)
  | .ok components =>
    let synthesis := Records.synthesize components
    let text := synthesis.toJson.pretty
    let report destination : TypesReport :=
      ⟨synthesis.components.length, synthesis.exports.renamedCount, destination⟩
    match output? with
    | none => (.ok (report (.output text)), tree)
    | some path =>
      match GeneratedFile.write ⟨path, text ++ "\n", .always⟩ tree with
      | (.ok _, written) => (.ok (report (.file path)), written)
      | (.error problem, written) => (.error (.file problem), written)

end WebComponents.Commands
