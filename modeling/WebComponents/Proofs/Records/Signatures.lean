import Mathlib.Data.List.Basic
import WebComponents.Proofs.Exports.Occurrences
import WebComponents.Proofs.Records.Emission

/-!
# Signatures of methods

The signature of a method is renamed by all aliases of the files that declare its types, also by
those that other components or other members brought in.  As long as these keep apart, the record
shows the signature with all tokens renamed at once, and each type of the method under its final
export name (`methodType?_of_keepsApart`).  A token that is no type of the method, here the type
parameter `Bar`, is renamed too if one of the files declares a type of that name:

```text
<Bar>(foo: Foo, bar: Bar) => void    ↦    <Bar1>(foo: Foo, bar: Bar1) => void
```
-/

namespace WebComponents.Records

open Metadata Exports NameCounts Text

variable {components : List Component} {component : Component} {i j : Nat}

/-! ## The types of one method -/

/-- A name refers to one type. -/
theorem eq_of_mem_declaredTypes {source : Path} {references : References}
    {type other : Path × String} (htype : type ∈ declaredTypes source references)
    (hother : other ∈ declaredTypes source references) (hname : other.2 = type.2) :
    other = type := by
  simp only [declaredTypes, List.mem_filterMap, Option.map_eq_some_iff] at htype hother
  obtain ⟨entry, hentry, file, hfile, rfl⟩ := htype
  obtain ⟨entry', hentry', file', hfile', rfl⟩ := hother
  have heq := List.inj_on_of_nodup_map references.nodup_names hentry' hentry hname
  rw [heq, hfile, Option.some_inj] at hfile'
  rw [heq, hfile']

theorem exists_mem_declaringFiles {source : Path} {references : References} {type : Path × String}
    (h : type ∈ declaredTypes source references) :
    ∃ file ∈ declaringFiles source references, type.1.Same file := by
  rw [declaringFiles_eq_firsts]
  exact exists_mem_firsts same_equivalence (List.mem_map_of_mem h)

theorem mem_appliedAliases {named : List (Path × Alias)} {source : Path} {references : References}
    {pair : Path × Alias} :
    pair ∈ appliedAliases ⟨importTable named⟩ source references ↔
      pair.1 ∈ declaringFiles source references ∧ pair.2 ∈ aliasesOf named pair.1 := by
  simp only [appliedAliases, getD_aliases?_importTable, List.mem_flatMap, List.mem_map]
  constructor
  · rintro ⟨file, hfile, item, hitem, rfl⟩
    exact ⟨hfile, hitem⟩
  · rintro ⟨hfile, hitem⟩
    exact ⟨pair.1, hfile, pair.2, hitem, rfl⟩

/-- Each type of a method is renamed to its export name. -/
theorem newName_appliedAliases {types : List (Path × String)} {source : Path}
    {references : References} {type : Path × String} {exportName : String}
    (hname : (Registry.mk (importTable (numberTypes (firsts SameType types)))).exportName?
      type.1 type.2 = some exportName)
    (h : type ∈ declaredTypes source references) :
    newName (declaredTypes source references)
      (appliedAliases ⟨importTable (numberTypes (firsts SameType types))⟩ source references)
        type.2 = exportName := by
  have hmem := mem_aliasesOf_of_exportName? hname
  refine newName_of_mem (fun other hother => eq_of_mem_declaredTypes h hother) ?_ ?_ h
  · obtain ⟨file, hfile, hsame⟩ := exists_mem_declaringFiles h
    exact ⟨(file, ⟨type.2, exportName⟩),
      mem_appliedAliases.mpr ⟨hfile, aliasesOf_congr hsame ▸ hmem⟩, rfl, hsame⟩
  · intro pair hpair hlocal hsame
    have hitem := (mem_appliedAliases.mp hpair).2
    rw [← aliasesOf_congr hsame] at hitem
    have hnodup := nodup_localNames (pairwise_firsts SameType types) type.1
    rw [List.inj_on_of_nodup_map hnodup hitem hmem hlocal]

/-! ## The record -/

/-- **How a signature is renamed.**  If each alias finds only its own tokens, the record of a method
shows the signature with all tokens renamed at once, where the types of the method get the export
names of the final registry. -/
theorem methodType?_of_keepsApart (hcomponent : components[i]? = some component) {method : Method}
    (hmethod : component.methods[j]? = some method)
    (hapart : KeepsApart (declaredTypes component.source method.type.references)
      (appliedAliases (registryAt components i) component.source method.type.references)
      method.type.signature) :
    (∀ type ∈ declaredTypes component.source method.type.references,
      (synthesize components).exports.exportName? type.1 type.2 =
        some (newName (declaredTypes component.source method.type.references)
          (appliedAliases (registryAt components i) component.source method.type.references)
          type.2)) ∧
    (synthesize components).methodType? i j =
      some (renameTokens (newName (declaredTypes component.source method.type.references)
          (appliedAliases (registryAt components i) component.source method.type.references))
        method.type.signature) := by
  constructor
  · intro type htype
    have hreferred : type ∈ componentTypes component :=
      declaredTypes_subset_componentTypes
        (Or.inr (Or.inr ⟨method, List.mem_of_getElem? hmethod, rfl⟩)) htype
    obtain ⟨exportName, hearly, hfinal⟩ := exists_exportName?_registryAt hcomponent hreferred
    rw [registryAt_eq] at hearly ⊢
    rw [hfinal, exportedTypes, distinctTypes, newName_appliedAliases hearly htype]
  · rw [methodType?_synthesize hcomponent hmethod, renameType_eq_foldl]
    refine congrArg some (foldl_renameOccurrences (fun pair hpair => ?_) hapart)
    rw [registryAt_eq, mem_appliedAliases] at hpair
    exact exists_numbered hpair.2

/-- A method with types of two files, both second of their names. -/
theorem methodType?_of_keepsApart_promise :
    let method := Method.ofType "load"
      { MethodType.ofSignature "(a: Foo, b: Bar) => Promise<Foo[]>" "Promise<Foo[]>" with
        references := .ofPairs [("Foo", .here), ("Bar", .imported "./lib"),
          ("Promise", .everywhere)] }
    let component := { declaringComponent "x-b" ⟨"/b.tsx"⟩ ["Baz"] with methods := [method] }
    let components := [declaringComponent "x-a" ⟨"/a.tsx"⟩ ["Foo", "Bar"], component]
    KeepsApart (declaredTypes component.source method.type.references)
        (appliedAliases (registryAt components 1) component.source method.type.references)
        method.type.signature ∧
      (synthesize components).exports.exportName? ⟨"/lib"⟩ "Bar" = some "Bar1" ∧
      (synthesize components).methodType? 1 0 = some "(a: Foo1, b: Bar1) => Promise<Foo1[]>" := by
  intro method component components
  have hcomponent : components[1]? = some component := rfl
  have hmethod : component.methods[0]? = some method := rfl
  have hapart : KeepsApart (declaredTypes component.source method.type.references)
      (appliedAliases (registryAt components 1) component.source method.type.references)
      method.type.signature := by decide
  obtain ⟨hexports, htype⟩ := methodType?_of_keepsApart hcomponent hmethod hapart
  refine ⟨hapart, ?_, ?_⟩
  · rw [hexports (⟨"/lib"⟩, "Bar") (by decide)]
    decide
  · rw [htype]
    decide

/-- A type parameter gets a new name if a member declares a type of its name in the same file. -/
theorem methodType?_type_parameter :
    let method := Method.ofType "show"
      { MethodType.ofSignature "<Bar>(foo: Foo, bar: Bar) => void" "void" with
        references := .ofPairs [("Foo", .here)] }
    let component := { declaringComponent "x-b" ⟨"/b.tsx"⟩ ["Bar"] with methods := [method] }
    let components := [declaringComponent "x-a" ⟨"/a.tsx"⟩ ["Bar"], component]
    (∀ type ∈ declaredTypes component.source method.type.references, IsIdentifier type.2) ∧
      (∀ pair ∈ (synthesize components).exports.pairs, ∀ word ∈ tokensOf method.type.signature,
        pair.2.localName.toList <:+: word.toList → pair.2.localName = word) ∧
      ¬ ∃ rename : String → String,
        (∀ type ∈ declaredTypes component.source method.type.references,
          (synthesize components).exports.exportName? type.1 type.2 = some (rename type.2)) ∧
        (∀ word, (∀ type ∈ declaredTypes component.source method.type.references,
          type.2 ≠ word) → rename word = word) ∧
        (synthesize components).methodType? 1 0 =
          some (renameTokens rename method.type.signature) := by
  intro method component components
  refine ⟨by decide, by decide, ?_⟩
  rintro ⟨rename, hown, hother, htype⟩
  have htypes : declaredTypes component.source method.type.references =
      [(⟨"/b.tsx"⟩, "Foo")] := by decide
  rw [htypes] at hown hother
  have hkept (word : String) : rename word = id word := by
    by_cases hword : word = "Foo"
    · have hname := hown _ List.mem_cons_self
      have hfinal : (synthesize components).exports.exportName? ⟨"/b.tsx"⟩ "Foo" =
          some "Foo" := by decide
      rw [hfinal, Option.some_inj] at hname
      rw [hword, id, ← hname]
    · refine hother word fun type htype => ?_
      rw [List.mem_singleton.mp htype]
      exact fun heq => hword heq.symm
  rw [renameTokens_congr fun word _ => hkept word, renameTokens_id] at htype
  exact absurd htype (by decide)

end WebComponents.Records
