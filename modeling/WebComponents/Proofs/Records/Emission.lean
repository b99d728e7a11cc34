import Mathlib.Data.List.Basic
import WebComponents.Proofs.Exports.Aliases
import WebComponents.Records.Synthesis

/-!
# Which registry a record was made with

`synthesize` threads one ledger through the components.  Two equations take the thread out:

* the registry at the end comes from one run over all types that the components refer to
  (`exports_synthesize`);
* the records of the component at place `i` are made with the registry of the first `i + 1`
  components (`getElem?_components_synthesize`), which that of all components extends
  (`exportedTypes_take_initial`).
-/

namespace WebComponents.Records

open Metadata Exports

variable {components : List Component} {component : Component} {i j : Nat}

/-! ## The types in order -/

/-- The types that the components refer to, in order: for each component those of its properties,
then of its events, then of its methods. -/
def referredTypes (components : List Component) : List (Path × String) :=
  components.flatMap fun component =>
    (component.properties.flatMap fun property =>
      declaredTypes component.source property.type.references) ++
    (component.events.flatMap fun event =>
      declaredTypes component.source event.type.references) ++
    component.methods.flatMap fun method =>
      declaredTypes component.source method.type.references

/-- The types without those that were met before. -/
def distinctTypes (components : List Component) : List (Path × String) :=
  firsts SameType (referredTypes components)

/-- The distinct types with their export names. -/
def exportedTypes (components : List Component) : List (Path × Alias) :=
  numberTypes (distinctTypes components)

theorem referredTypes_cons (component : Component) (components : List Component) :
    referredTypes (component :: components) =
      componentTypes component ++ referredTypes components := by
  simp [referredTypes, componentTypes, List.flatMap_map]

theorem referredTypes_append (components more : List Component) :
    referredTypes (components ++ more) = referredTypes components ++ referredTypes more :=
  List.flatMap_append

/-- A component's types are among those of all components up to it. -/
theorem mem_referredTypes_take (hcomponent : components[i]? = some component)
    {type : Path × String} (h : type ∈ componentTypes component) :
    type ∈ referredTypes (components.take (i + 1)) := by
  rw [List.take_add_one, hcomponent, referredTypes_append]
  refine List.mem_append_right _ ?_
  rw [Option.toList_some, referredTypes_cons]
  exact List.mem_append_left _ h

/-- The types of a member are among those of its component. -/
theorem declaredTypes_subset_componentTypes {references : References}
    (h : (∃ property ∈ component.properties, property.type.references = references) ∨
      (∃ event ∈ component.events, event.type.references = references) ∨
      ∃ method ∈ component.methods, method.type.references = references) :
    declaredTypes component.source references ⊆ componentTypes component := by
  intro type htype
  refine List.mem_flatMap.mpr ⟨references, ?_, htype⟩
  rw [List.mem_append, List.mem_append, List.mem_map, List.mem_map, List.mem_map, or_assoc]
  exact h

/-- Later components only add to what is exported. -/
theorem exportedTypes_take_initial (components : List Component) (n : Nat) :
    exportedTypes (components.take n) <+: exportedTypes components := by
  obtain ⟨more, hmore⟩ := firsts_prefix_append SameType
    (referredTypes (components.take n)) (referredTypes (components.drop n))
  rw [← referredTypes_append, List.take_append_drop] at hmore
  rw [exportedTypes, exportedTypes, distinctTypes, distinctTypes, ← hmore]
  exact numberTypes_prefix_append _ _

/-! ## The thread of registrations -/

theorem snd_synthesizeFrom (ledger : Ledger) (components : List Component) :
    (synthesizeFrom ledger components).2 = ledger.registerAll (referredTypes components) := by
  induction components generalizing ledger with
  | nil => rfl
  | cons component components ih =>
      rw [referredTypes_cons, Ledger.registerAll, List.foldl_append]
      exact ih (ledger.registerComponent component)

theorem getElem?_fst_synthesizeFrom (ledger : Ledger) (components : List Component) (i : Nat) :
    (synthesizeFrom ledger components).1[i]? = components[i]?.map
      (componentRecords
        (ledger.registerAll (referredTypes (components.take (i + 1)))).registry) := by
  induction components generalizing ledger i with
  | nil => rfl
  | cons component components ih =>
      cases i with
      | zero =>
          have htypes : referredTypes [component] = componentTypes component := by
            rw [referredTypes_cons]
            exact List.append_nil _
          simp [synthesizeFrom, htypes, Ledger.registerComponent]
      | succ i =>
          rw [List.take_succ_cons, referredTypes_cons, Ledger.registerAll, List.foldl_append]
          exact ih (ledger.registerComponent component) i

theorem exports_synthesize (components : List Component) :
    (synthesize components).exports = ⟨importTable (exportedTypes components)⟩ := by
  rw [exportedTypes, distinctTypes,
    ← (tabulates_registerAll (referredTypes components)).registry_eq, ← snd_synthesizeFrom]
  rfl

/-- The records of a component are made with the registry of the components up to it. -/
theorem getElem?_components_synthesize (components : List Component) (i : Nat) :
    (synthesize components).components[i]? = components[i]?.map
      (componentRecords (synthesize (components.take (i + 1))).exports) := by
  have hfinal : (synthesize (components.take (i + 1))).exports =
      (Ledger.empty.registerAll (referredTypes (components.take (i + 1)))).registry := by
    rw [← snd_synthesizeFrom]
    rfl
  rw [hfinal]
  exact getElem?_fst_synthesizeFrom .empty components i

/-! ## The types in the records -/

/-- The type in the record of the `j`-th property of the `i`-th component. -/
def Synthesis.propertyType? (synthesis : Synthesis) (i j : Nat) : Option String :=
  synthesis.components[i]?.bind fun records => records.properties[j]?.map (·.type)

/-- The type in the record of the `j`-th event of the `i`-th component. -/
def Synthesis.eventType? (synthesis : Synthesis) (i j : Nat) : Option String :=
  synthesis.components[i]?.bind fun records => records.events[j]?.map (·.type)

/-- The type in the record of the `j`-th method of the `i`-th component. -/
def Synthesis.methodType? (synthesis : Synthesis) (i j : Nat) : Option String :=
  synthesis.components[i]?.bind fun records => records.methods[j]?.map (·.type)

/-- The registry that the records of the `i`-th component are made with. -/
def registryAt (components : List Component) (i : Nat) : Registry :=
  (synthesize (components.take (i + 1))).exports

theorem registryAt_eq (components : List Component) (i : Nat) :
    registryAt components i = ⟨importTable (exportedTypes (components.take (i + 1)))⟩ :=
  exports_synthesize _

/-- A component's types have their final export names when its records are made. -/
theorem exists_exportName?_registryAt (hcomponent : components[i]? = some component)
    {type : Path × String} (h : type ∈ componentTypes component) :
    ∃ exportName, (registryAt components i).exportName? type.1 type.2 = some exportName ∧
      (synthesize components).exports.exportName? type.1 type.2 = some exportName := by
  obtain ⟨exportName, hname⟩ := exists_exportName? (mem_referredTypes_take hcomponent h)
  refine ⟨exportName, ?_, ?_⟩
  · rw [registryAt_eq]
    exact hname
  · rw [exports_synthesize]
    exact exportName?_of_prefix (exportedTypes_take_initial components (i + 1)) hname

theorem getD_aliases?_registryAt (components : List Component) (i : Nat) (file : Path) :
    ((registryAt components i).aliases? file).getD [] =
      aliasesOf (exportedTypes (components.take (i + 1))) file := by
  rw [registryAt_eq, getD_aliases?_importTable]

theorem propertyType?_synthesize (hcomponent : components[i]? = some component)
    {property : Property} (hproperty : component.properties[j]? = some property) :
    (synthesize components).propertyType? i j =
      some (renameType renameIdentifier (registryAt components i) component.source
        property.type.references property.type.written) := by
  have hlt : j < component.properties.length := (List.getElem?_eq_some_iff.mp hproperty).1
  have hrecord (registry : Registry) : (propertyRecords registry component)[j]? =
      some (propertyRecord registry component.source property) := by
    rw [propertyRecords, List.getElem?_append_left (by simpa using hlt), List.getElem?_map,
      hproperty, Option.map_some]
  simp [Synthesis.propertyType?, getElem?_components_synthesize, hcomponent, componentRecords,
    hrecord, propertyRecord, registryAt]

theorem eventType?_synthesize (hcomponent : components[i]? = some component)
    {event : Event} (hevent : component.events[j]? = some event) :
    (synthesize components).eventType? i j =
      some (eventType (registryAt components i) component.source event.type) := by
  simp [Synthesis.eventType?, getElem?_components_synthesize, hcomponent, componentRecords,
    eventRecords, hevent, eventRecord, registryAt]

theorem methodType?_synthesize (hcomponent : components[i]? = some component)
    {method : Method} (hmethod : component.methods[j]? = some method) :
    (synthesize components).methodType? i j =
      some (renameType renameOccurrences (registryAt components i) component.source
        method.type.references method.type.signature) := by
  simp [Synthesis.methodType?, getElem?_components_synthesize, hcomponent, componentRecords,
    methodRecords, hmethod, methodRecord, registryAt]

/-! ## Small components -/

/-- A component with one property for each of the types, which its own file declares. -/
def declaringComponent (tag : String) (file : Path) (names : List String) : Component :=
  { Component.ofTag tag file with
    properties := names.map fun name => Property.ofType name.toLower
      { ValueType.ofText name with references := .ofPairs [(name, .here)] } }

end WebComponents.Records
