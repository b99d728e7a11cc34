import WebComponents.Proofs.Exports.Occurrences

/-!
# One turn for each file

A text is renamed by the aliases of every file that its references lead to, file after file.  A file
has its turn once, when the first reference leads to it, because an alias that is applied again may
number a name twice:

```text
alias          Foo as Foo1
text           (a: Foo) => void
first turn     (a: Foo1) => void
second turn    (a: Foo11) => void
```

So one more reference at the end either gives its file the last turn, or it changes nothing
(`appliedAliases_insert`).
-/

namespace WebComponents.Exports

open Metadata

variable {registry : Registry} {source file : Path} {references : References} {name : String}
  {reference : Reference}

/-- One of the references leads to the file, in whatever spelling. -/
def LeadsTo (source : Path) (references : References) (file : Path) : Prop :=
  ∃ type ∈ declaredTypes source references, type.1.Same file

instance (source : Path) (references : References) : DecidablePred (LeadsTo source references) :=
  fun file => inferInstanceAs (Decidable (∃ type ∈ declaredTypes source references,
    type.1.Same file))

/-- The reference leads to no file with aliases that were not applied for the other references. -/
inductive AddsNothing (registry : Registry) (source : Path) (references : References) :
    Reference → Prop
  | everywhere : AddsNothing registry source references .everywhere
  | unregistered {reference : Reference} {file : Path}
      (hfile : declaringFile? source reference = some file) (h : registry.aliases? file = none) :
      AddsNothing registry source references reference
  | seen {reference : Reference} {file : Path}
      (hfile : declaringFile? source reference = some file) (h : LeadsTo source references file) :
      AddsNothing registry source references reference

/-! ## One more reference -/

theorem declaredTypes_insert (source : Path) (hnew : name ∉ references.entries.map (·.1))
    (reference : Reference) :
    declaredTypes source (references.insert name reference) =
      declaredTypes source references ++
        ((declaringFile? source reference).map fun file => (file, name)).toList := by
  rw [declaredTypes, References.entries_insert hnew, List.filterMap_append, ← declaredTypes]
  cases hfile : declaringFile? source reference <;> simp [hfile]

theorem declaringFiles_insert (hnew : name ∉ references.entries.map (·.1))
    (hfile : declaringFile? source reference = some file) :
    declaringFiles source (references.insert name reference) =
      if LeadsTo source references file then declaringFiles source references
      else declaringFiles source references ++ [file] := by
  have hseen : (∃ other ∈ (declaredTypes source references).map (·.1), file.Same other) ↔
      LeadsTo source references file := by
    constructor
    · rintro ⟨other, hother, hsame⟩
      obtain ⟨type, htype, rfl⟩ := List.mem_map.mp hother
      exact ⟨type, htype, hsame.symm⟩
    · rintro ⟨type, htype, hsame⟩
      exact ⟨type.1, List.mem_map_of_mem htype, hsame.symm⟩
  rw [declaringFiles_eq_firsts, declaredTypes_insert source hnew, hfile, List.map_append,
    Option.map_some, Option.toList_some, List.map_singleton, firsts_concat,
    ← declaringFiles_eq_firsts]
  exact if_congr hseen rfl rfl

/-- A type known everywhere leads to no file. -/
theorem appliedAliases_insert_everywhere (registry : Registry)
    (hnew : name ∉ references.entries.map (·.1)) :
    appliedAliases registry source (references.insert name .everywhere) =
      appliedAliases registry source references := by
  have htypes : declaredTypes source (references.insert name .everywhere) =
      declaredTypes source references := by
    rw [declaredTypes_insert source hnew, declaringFile?, Option.map_none, Option.toList_none,
      List.append_nil]
  rw [appliedAliases, appliedAliases, declaringFiles_eq_firsts, declaringFiles_eq_firsts, htypes]

/-- A file that was seen has no second turn, and a new one has the last. -/
theorem appliedAliases_insert (registry : Registry) (hnew : name ∉ references.entries.map (·.1))
    (hfile : declaringFile? source reference = some file) :
    appliedAliases registry source (references.insert name reference) =
      if LeadsTo source references file then appliedAliases registry source references
      else appliedAliases registry source references ++
        ((registry.aliases? file).getD []).map fun item => (file, item) := by
  unfold appliedAliases
  rw [declaringFiles_insert hnew hfile]
  split
  · rfl
  · rw [List.flatMap_append, List.flatMap_singleton]

theorem AddsNothing.appliedAliases_insert_eq
    (h : AddsNothing registry source references reference)
    (hnew : name ∉ references.entries.map (·.1)) :
    appliedAliases registry source (references.insert name reference) =
      appliedAliases registry source references := by
  cases h with
  | everywhere => exact appliedAliases_insert_everywhere registry hnew
  | unregistered hfile hnone =>
      rw [appliedAliases_insert registry hnew hfile, hnone, Option.getD_none, List.map_nil,
        List.append_nil]
      exact ite_self _
  | seen hfile hseen => rw [appliedAliases_insert registry hnew hfile, if_pos hseen]

/-- **A file has one turn.**  A reference at the end that leads to no file, to a file that is not
registered or to a file that was seen does not change how a text is renamed. -/
theorem renameType_insert_of_addsNothing (rename : String → Alias → String)
    (hnew : name ∉ references.entries.map (·.1))
    (h : AddsNothing registry source references reference) (text : String) :
    renameType rename registry source (references.insert name reference) text =
      renameType rename registry source references text := by
  rw [renameType_eq_foldl, renameType_eq_foldl, h.appliedAliases_insert_eq hnew]

/-- An import that spells the file with other steps comes after a local type and a package's. -/
theorem renameType_insert_of_addsNothing_import :
    let registry := (Ledger.empty.registerAll
      [(⟨"/lib.ts"⟩, "Foo"), (⟨"/src/a.tsx"⟩, "Foo")]).registry
    let references : References := .ofPairs [("Foo", .here), ("Size", .imported "sizes")]
    "Bar" ∉ references.entries.map (·.1) ∧
      AddsNothing registry ⟨"/src//a.tsx"⟩ references (.imported "./b/../a.tsx") ∧
      renameType renameOccurrences registry ⟨"/src//a.tsx"⟩
        (references.insert "Bar" (.imported "./b/../a.tsx")) "(a: Foo) => Bar" =
          "(a: Foo1) => Bar" := by
  intro registry references
  have hnew : "Bar" ∉ references.entries.map (·.1) := by decide
  have hfile : declaringFile? ⟨"/src//a.tsx"⟩ (.imported "./b/../a.tsx") = some ⟨"/src/a.tsx"⟩ := by
    decide
  have hseen : LeadsTo ⟨"/src//a.tsx"⟩ references ⟨"/src/a.tsx"⟩ := by decide
  have hadds : AddsNothing registry ⟨"/src//a.tsx"⟩ references (.imported "./b/../a.tsx") :=
    .seen hfile hseen
  refine ⟨hnew, hadds, ?_⟩
  rw [renameType_insert_of_addsNothing renameOccurrences hnew hadds]
  decide

end WebComponents.Exports
