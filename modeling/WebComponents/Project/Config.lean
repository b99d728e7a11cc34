import WebComponents.Toml.Reader

/-!
# The project's configuration

A configuration file is a TOML document whose table `project` may give a name and two directories.
Anything else in the document is passed over, as long as its numbers can be represented.
-/

namespace WebComponents.Project

open Toml

/-- What a configuration file says about the project. -/
structure Config where
  name? : Option String
  sourceDir? : Option String
  typesDir? : Option String
  deriving DecidableEq, Repr

/-- A configuration that says nothing. -/
def Config.blank : Config := ⟨none, none, none⟩

/-- The least integer of 128 bits. -/
def minInteger : Int := -0x80000000000000000000000000000000

/-- The largest integer of 128 bits without a sign. -/
def maxInteger : Int := 0xFFFFFFFFFFFFFFFFFFFFFFFFFFFFFFFF

mutual

/-- Whether a value that is passed over can be represented: its integers have at most 128 bits, and
its floating-point numbers are finite. -/
def isRepresentable : Item → Bool
  | .integer value => minInteger ≤ value && value ≤ maxInteger
  | .float tooLarge => !tooLarge
  | .array items => allRepresentable items
  | .table _ entries => entriesRepresentable entries
  | .tables tables => tablesRepresentable tables
  | _ => true

/-- Whether all values of an array can be represented. -/
def allRepresentable : List Item → Bool
  | [] => true
  | item :: items => isRepresentable item && allRepresentable items

/-- Whether all values of a table can be represented. -/
def entriesRepresentable : List (String × Item) → Bool
  | [] => true
  | (_, item) :: entries => isRepresentable item && entriesRepresentable entries

/-- Whether all values of several tables can be represented. -/
def tablesRepresentable : List (List (String × Item)) → Bool
  | [] => true
  | table :: tables => entriesRepresentable table && tablesRepresentable tables

end

/-- The configuration with one more entry of the table `project`. -/
def Config.withEntry (config : Config) : String × Item → Option Config
  | ("name", .string text) => some { config with name? := text }
  | ("src_dir", .string text) => some { config with sourceDir? := text }
  | ("types_dir", .string text) => some { config with typesDir? := text }
  | ("name", _) | ("src_dir", _) | ("types_dir", _) => none
  | (_, item) => if isRepresentable item then some config else none

/-- The configuration in the value of `project`: a table, or an array of the three texts in their
order; a date counts as a table without any of them. -/
def Config.ofItem? : Item → Option Config
  | .table _ entries => entries.foldlM Config.withEntry .blank
  | .array (.string name :: .string sourceDir :: .string typesDir :: _) =>
    some ⟨name, sourceDir, typesDir⟩
  | .moment => some .blank
  | _ => none

/-- The configuration in a document. -/
def Config.ofEntries? (entries : Entries) : Option Config := do
  let others := entries.filter fun entry => entry.1 ≠ "project"
  if entriesRepresentable others then
    match entries.get? "project" with
    | none => some .blank
    | some item => Config.ofItem? item
  else
    none

/-- The configuration in a text. -/
def Config.ofText? (text : String) : Option Config := do
  Config.ofEntries? (← parse? text)

end WebComponents.Project
