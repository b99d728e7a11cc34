import Mathlib.Data.List.Basic
import WebComponents.Proofs.Records.Emission

/-!
# Types that are one name

The type of a property or of an event's payload is often nothing but the name of one type.  Its
record then shows the name under which the registry exports that type, with one exception
(`type_eq_exportName_iff`): the aliases of the file are applied one after the other, so an export
name that is itself a local name further down is renamed once more.  With

```text
/b.tsx    Foo  ↦ Foo1     Foo1 ↦ Foo11
```

a property of type `Foo` is recorded with `Foo11`, which is another type.
-/

namespace WebComponents.Records

open Metadata Exports

variable {components : List Component} {component : Component} {i : Nat}

/-- The type is the name of one type, which the file declares, and refers to nothing else. -/
structure IsReferenceTo (source : Path) (type : ValueType) (file : Path) (name : String) :
    Prop where
  entries : ∃ reference, type.references.entries = [(name, reference)] ∧
    declaringFile? source reference = some file
  written : type.written = name
  nonempty : name ≠ ""

theorem IsReferenceTo.mem_declaredTypes {source file : Path} {type : ValueType} {name : String}
    (h : IsReferenceTo source type file name) :
    (file, name) ∈ declaredTypes source type.references := by
  obtain ⟨reference, hentries, hfile⟩ := h.entries
  simp [declaredTypes, hentries, hfile]

theorem IsReferenceTo.renameType_eq {source file : Path} {type : ValueType} {name : String}
    (h : IsReferenceTo source type file name) (registry : Registry) :
    renameType renameIdentifier registry source type.references type.written =
      ((registry.aliases? file).getD []).foldl renameIdentifier name := by
  obtain ⟨reference, hentries, hfile⟩ := h.entries
  simp [renameType, declaringFiles, hentries, hfile, distinctFiles, h.written]

/-- The text of such a type becomes the export name unless this is taken up. -/
theorem IsReferenceTo.renameType_eq_iff {file : Path} {type : ValueType} {name : String}
    (h : IsReferenceTo component.source type file name)
    (hcomponent : components[i]? = some component)
    (htypes : declaredTypes component.source type.references ⊆ componentTypes component) :
    ∃ exportName, (synthesize components).exports.exportName? file name = some exportName ∧
      (renameType renameIdentifier (registryAt components i) component.source type.references
          type.written = exportName ↔
        ¬ TakenUp (((registryAt components i).aliases? file).getD []) ⟨name, exportName⟩) := by
  obtain ⟨exportName, hearly, hfinal⟩ :=
    exists_exportName?_registryAt hcomponent (htypes h.mem_declaredTypes)
  refine ⟨exportName, hfinal, ?_⟩
  rw [registryAt_eq] at hearly
  rw [h.renameType_eq, getD_aliases?_registryAt]
  have hnodup := nodup_localNames
    (pairwise_firsts SameType (referredTypes (components.take (i + 1)))) file
  exact foldl_renameIdentifier_eq_iff ⟨name, exportName⟩ hnodup (fun _ => exists_numbered)
    (mem_aliasesOf_of_exportName? hearly) h.nonempty

theorem handlerType_inj {first second : String} :
    handlerType first = handlerType second ↔ first = second := by
  unfold handlerType
  exact (String.append_left_inj _).trans (String.append_right_inj _)

/-- **Which name a single reference gets.**  The record of a property or an event whose type is one
name shows the export name of that type in the final registry, unless a later alias of the file
takes the export name up. -/
theorem type_eq_exportName_iff (hcomponent : components[i]? = some component) (file : Path)
    (name : String) :
    (∀ j property, component.properties[j]? = some property →
      IsReferenceTo component.source property.type file name →
      ∃ exportName, (synthesize components).exports.exportName? file name = some exportName ∧
        ((synthesize components).propertyType? i j = some exportName ↔
          ¬ TakenUp (((registryAt components i).aliases? file).getD []) ⟨name, exportName⟩)) ∧
    ∀ j event, component.events[j]? = some event →
      IsReferenceTo component.source event.type file name →
      ∃ exportName, (synthesize components).exports.exportName? file name = some exportName ∧
        ((synthesize components).eventType? i j =
            some ("(event: CustomEvent<" ++ exportName ++ ">) => void") ↔
          ¬ TakenUp (((registryAt components i).aliases? file).getD []) ⟨name, exportName⟩) := by
  constructor
  · intro j property hproperty h
    obtain ⟨exportName, hname, hiff⟩ := h.renameType_eq_iff hcomponent
      (declaredTypes_subset_componentTypes
        (Or.inl ⟨property, List.mem_of_getElem? hproperty, rfl⟩))
    refine ⟨exportName, hname, ?_⟩
    rw [propertyType?_synthesize hcomponent hproperty, Option.some_inj]
    exact hiff
  · intro j event hevent h
    obtain ⟨exportName, hname, hiff⟩ := h.renameType_eq_iff hcomponent
      (declaredTypes_subset_componentTypes
        (Or.inr (Or.inl ⟨event, List.mem_of_getElem? hevent, rfl⟩)))
    refine ⟨exportName, hname, ?_⟩
    have hwritten : event.type.written ≠ "" := h.written ▸ h.nonempty
    rw [eventType?_synthesize hcomponent hevent, Option.some_inj, eventType, if_neg hwritten,
      ← hiff]
    exact handlerType_inj

/-- A property and an event of the type `Foo`, the second of its name, and an alias after it. -/
theorem type_eq_exportName_iff_foo :
    let components := [declaringComponent "x-a" ⟨"/a.tsx"⟩ ["Foo"],
      { declaringComponent "x-b" ⟨"/b.tsx"⟩ ["Foo", "Bar"] with
        events := [Event.ofType "change"
          { ValueType.ofText "Foo" with references := .ofPairs [("Foo", .here)] }] }]
    let aliases := ((registryAt components 1).aliases? ⟨"/b.tsx"⟩).getD []
    (∃ exportName, (synthesize components).exports.exportName? ⟨"/b.tsx"⟩ "Foo" = some exportName ∧
      ((synthesize components).propertyType? 1 0 = some exportName ↔
        ¬ TakenUp aliases ⟨"Foo", exportName⟩)) ∧
    ∃ exportName, (synthesize components).exports.exportName? ⟨"/b.tsx"⟩ "Foo" = some exportName ∧
      ((synthesize components).eventType? 1 0 =
          some ("(event: CustomEvent<" ++ exportName ++ ">) => void") ↔
        ¬ TakenUp aliases ⟨"Foo", exportName⟩) := by
  intro components aliases
  have hcomponent : components[1]? = some _ := rfl
  obtain ⟨hproperties, hevents⟩ := type_eq_exportName_iff hcomponent ⟨"/b.tsx"⟩ "Foo"
  exact ⟨hproperties 0 _ rfl ⟨⟨.here, by decide, rfl⟩, by decide, by decide⟩,
    hevents 0 _ rfl ⟨⟨.here, by decide, rfl⟩, by decide, by decide⟩⟩

/-- The export name `Foo1` of a property's type is taken up by the alias of `Foo1`. -/
theorem propertyType?_taken_up :
    let components := [declaringComponent "x-a" ⟨"/a.tsx"⟩ ["Foo", "Foo1"],
      declaringComponent "x-b" ⟨"/b.tsx"⟩ ["Foo", "Foo1"]]
    ∃ component property, components[1]? = some component ∧
      component.properties[0]? = some property ∧
      IsReferenceTo component.source property.type ⟨"/b.tsx"⟩ "Foo" ∧
      (synthesize components).exports.exportName? ⟨"/b.tsx"⟩ "Foo" = some "Foo1" ∧
      (synthesize components).propertyType? 1 0 = some "Foo11" := by
  exact ⟨_, _, rfl, rfl, ⟨⟨.here, by decide, rfl⟩, by decide, by decide⟩, by decide, by decide⟩

end WebComponents.Records
