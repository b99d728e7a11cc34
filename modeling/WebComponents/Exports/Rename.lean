import WebComponents.Exports.Registry
import WebComponents.Text.Pieces

/-!
# Export names in the text of a type

The text of a type uses the names of the declaring files.  To be exported it has to use the export
names, so every alias of every file that the type refers to is applied to the text, one after
another.  A property's text is an identifier or it stays (`renameIdentifier`); in a method's
signature all occurrences are replaced (`renameOccurrences`).
-/

namespace WebComponents.Exports

open Metadata

/-- The export name if the text is exactly the local name. -/
def renameIdentifier (text : String) (item : Alias) : String :=
  if item.localName = text ∧ item.exportName ≠ "" then item.exportName else text

/-- The text with each occurrence of the local name replaced by the export name. -/
def renameOccurrences (text : String) (item : Alias) : String :=
  if item.localName = "" ∨ item.localName = item.exportName then text
  else
    String.ofList
      (Text.replaceAll item.localName.toList item.exportName.toList text.toList)

/-- The files without those that stand earlier in the list. -/
def distinctFiles : List Path → List Path
  | [] => []
  | file :: files => file :: (distinctFiles files).filter fun other => ¬ other.Same file

/-- The files that declare the types of some references, each once. -/
def declaringFiles (source : Path) (references : References) : List Path :=
  distinctFiles (references.entries.filterMap fun (_, reference) => declaringFile? source reference)

/-- The text after the aliases of all declaring files have been applied. -/
def renameType (rename : String → Alias → String) (registry : Registry) (source : Path)
    (references : References) (text : String) : String :=
  (declaringFiles source references).foldl
    (fun text file => ((registry.aliases? file).getD []).foldl rename text) text

end WebComponents.Exports
