import WebComponents.Exports.NameCounts
import WebComponents.Metadata.Basic
import WebComponents.Path.Lexical

/-!
# The registry of exported types

Every type that a component refers to, other than those known everywhere, is exported under a name
of its own.  The registry keeps, for each declaring file in order of first sight, the names that the
file declares with the names they are exported under.  Files are told apart by their segments, and
the first spelling of a file stays.

`Ledger.register` is the only way in: a type that is known keeps its export name, and a new one gets
the next name from the table of counts.
-/

namespace WebComponents.Exports

open Metadata

/-! ## Declaring files -/

/-- The file that declares the referred type, seen from the file that refers to it; none for a type
known everywhere.  Only a specifier that starts with a dot is read in the directory of that
file. -/
def declaringFile? (source : Path) : Reference → Option Path
  | .everywhere => none
  | .here => some source
  | .imported specifier =>
    if specifier.toList.head? = some '.' then some (source.directory.resolve ⟨specifier⟩)
    else some ⟨specifier⟩

/-- The declared types among the references of a file, with their declaring files, in order. -/
def declaredTypes (source : Path) (references : References) : List (Path × String) :=
  references.entries.filterMap fun (name, reference) =>
    (declaringFile? source reference).map fun file => (file, name)

/-! ## The registry -/

/-- A type's name in the file that declares it and the name it is exported under. -/
structure Alias where
  localName : String
  exportName : String
  deriving DecidableEq, Repr

/-- A declaring file and its types in order. -/
structure DeclaringFile where
  file : Path
  aliases : List Alias
  deriving DecidableEq, Repr

/-- The declaring files in order. -/
structure Registry where
  entries : List DeclaringFile
  deriving DecidableEq, Repr

namespace Registry

/-- The registry without any file. -/
def empty : Registry := ⟨[]⟩

/-- The types of a file, if the file is registered. -/
def aliases? (registry : Registry) (file : Path) : Option (List Alias) :=
  (registry.entries.find? fun entry => entry.file.Same file).map DeclaringFile.aliases

/-- The name under which a type of a file is exported. -/
def exportName? (registry : Registry) (file : Path) (name : String) : Option String := do
  let aliases ← registry.aliases? file
  let found ← aliases.find? fun item => item.localName = name
  return found.exportName

/-- The entries with one more type for the file. -/
def addTo (file : Path) (item : Alias) : List DeclaringFile → List DeclaringFile
  | [] => [⟨file, [item]⟩]
  | entry :: entries =>
    if entry.file.Same file then { entry with aliases := entry.aliases ++ [item] } :: entries
    else entry :: addTo file item entries

/-- The registry with one more type for the file. -/
def add (registry : Registry) (file : Path) (item : Alias) : Registry :=
  ⟨addTo file item registry.entries⟩

/-- An added type comes last among those of its file, and the other files stay as they are. -/
theorem aliases?_add (registry : Registry) (file other : Path) (item : Alias) :
    (registry.add file item).aliases? other =
      if file.Same other then some ((registry.aliases? other).getD [] ++ [item])
      else registry.aliases? other := by
  obtain ⟨entries⟩ := registry
  unfold aliases? add
  induction entries with
  | nil => by_cases h : file.Same other <;> simp [addTo, h]
  | cons entry entries ih =>
      by_cases hentry : entry.file.Same file
      · have hiff : entry.file.Same other ↔ file.Same other :=
          ⟨hentry.symm.trans, hentry.trans⟩
        by_cases h : file.Same other <;> simp [addTo, hentry, h, hiff]
      · by_cases hother : entry.file.Same other
        · have h : ¬ file.Same other := fun h => hentry (hother.trans h.symm)
          simp [addTo, hentry, hother, h]
        · simpa [addTo, hentry, hother] using ih

/-- All registered types with their files, in order. -/
def pairs (registry : Registry) : List (Path × Alias) :=
  registry.entries.flatMap fun entry => entry.aliases.map fun item => (entry.file, item)

/-- How many types are exported under another name than their own. -/
def renamedCount (registry : Registry) : Nat :=
  (registry.pairs.filter fun (_, item) => item.localName ≠ item.exportName).length

end Registry

/-! ## Registration -/

/-- A registry and the counts from which its names come. -/
structure Ledger where
  registry : Registry
  counts : NameCounts
  deriving DecidableEq, Repr

namespace Ledger

/-- The ledger of a new run. -/
def empty : Ledger := ⟨.empty, .empty⟩

/-- Hands out a name without registering a type. -/
def next (ledger : Ledger) (name : String) : String × Ledger :=
  let (handed, counts) := ledger.counts.next name
  (handed, { ledger with counts })

/-- The export name of a type, and the ledger in which the type is registered. -/
def register (ledger : Ledger) (file : Path) (name : String) : String × Ledger :=
  match ledger.registry.exportName? file name with
  | some exportName => (exportName, ledger)
  | none =>
    let (exportName, counts) := ledger.counts.next name
    (exportName, ⟨ledger.registry.add file ⟨name, exportName⟩, counts⟩)

/-- The ledger in which all the types are registered, in order. -/
def registerAll (ledger : Ledger) (types : List (Path × String)) : Ledger :=
  types.foldl (fun ledger (file, name) => (ledger.register file name).2) ledger

end Ledger

/-- The declared types that a component refers to: those of its properties, then of its events, then
of its methods. -/
def componentTypes (component : Component) : List (Path × String) :=
  let references :=
    component.properties.map (·.type.references) ++ component.events.map (·.type.references) ++
      component.methods.map (·.type.references)
  references.flatMap (declaredTypes component.source)

/-- The ledger in which the types of a component are registered. -/
def Ledger.registerComponent (ledger : Ledger) (component : Component) : Ledger :=
  ledger.registerAll (componentTypes component)

end WebComponents.Exports
