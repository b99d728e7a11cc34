import Mathlib.Data.List.Basic
import WebComponents.Proofs.Exports.Occurrences
import WebComponents.Proofs.Records.Emission

/-!
# Types that are apart

If no name is referred to in two files, every type is the only one of its name.  No type of the name
comes before it, so it is numbered `0` and exported under its own name.  This holds of all types of
a run (`exportName_eq_of_apart`), hence of every registry on the way, and an alias that does not
rename leaves any text as it is.  So the records show what the authors wrote
(`types_eq_written_of_apart`).
-/

namespace WebComponents.Records

open Metadata Exports NameCounts

variable {components : List Component} {i : Nat}

/-- Types of one name are declared in one file. -/
def NamesApart (types : List (Path × String)) : Prop :=
  ∀ first ∈ types, ∀ second ∈ types, first.2 = second.2 → first.1.Same second.1

instance (types : List (Path × String)) : Decidable (NamesApart types) :=
  inferInstanceAs (Decidable (∀ first ∈ types, ∀ second ∈ types,
    first.2 = second.2 → first.1.Same second.1))

/-! ## Export names -/

theorem countNamed_take_eq_zero {types : List (Path × String)}
    (hdistinct : types.Pairwise fun earlier later => ¬ SameType later earlier)
    (hapart : NamesApart types) {file : Path} {name : String}
    (htype : types[i]? = some (file, name)) : countNamed (types.take i) name = 0 := by
  obtain ⟨hlt, hget⟩ := List.getElem?_eq_some_iff.mp htype
  refine List.countP_eq_zero.mpr fun earlier hearlier hname => ?_
  obtain ⟨j, hj, rfl⟩ := List.mem_take_iff_getElem.mp hearlier
  have hji : j < i := Nat.lt_of_lt_of_le hj (Nat.min_le_left _ _)
  have hearlierName : types[j].2 = name := by simpa using hname
  have hsameName : types[i].2 = types[j].2 := by rw [hget, hearlierName]
  have hsameFile : types[i].1.Same types[j].1 :=
    hapart _ (List.getElem_mem _) _ (List.getElem_mem _) hsameName
  exact List.pairwise_iff_getElem.mp hdistinct j i _ hlt hji ⟨hsameFile, hsameName⟩

/-- Every type keeps its own name. -/
theorem exportName_eq_of_apart (hapart : NamesApart (referredTypes components)) {file : Path}
    {item : Alias} (hitem : (file, item) ∈ exportedTypes components) :
    item.exportName = item.localName := by
  obtain ⟨i, htype, hname⟩ := mem_numberTypes.mp hitem
  have hdistinctApart : NamesApart (distinctTypes components) := by
    intro first hfirst second hsecond
    exact hapart first (mem_of_mem_firsts hfirst) second (mem_of_mem_firsts hsecond)
  have hzero : countNamed ((distinctTypes components).take i) item.localName = 0 :=
    countNamed_take_eq_zero (pairwise_firsts SameType _) hdistinctApart htype
  rw [hname, hzero, numbered_zero]

theorem exportName_eq_of_mem_registryAt (hapart : NamesApart (referredTypes components))
    {file : Path} {item : Alias}
    (hitem : item ∈ ((registryAt components i).aliases? file).getD []) :
    item.exportName = item.localName := by
  rw [getD_aliases?_registryAt] at hitem
  obtain ⟨⟨spelled, _⟩, hpair, rfl⟩ := List.mem_map.mp hitem
  have hexported := (exportedTypes_take_initial components (i + 1)).subset
    (List.mem_of_mem_filter hpair)
  exact exportName_eq_of_apart hapart hexported

/-! ## Texts -/

theorem renameIdentifier_of_own_name {item : Alias} (h : item.exportName = item.localName)
    (text : String) : renameIdentifier text item = text := by
  unfold renameIdentifier
  split
  · rename_i hname
    rw [h, hname.1]
  · rfl

theorem renameOccurrences_of_own_name {item : Alias} (h : item.exportName = item.localName)
    (text : String) : renameOccurrences text item = text :=
  renameOccurrences_of_same text (Or.inr h.symm)

/-- A text stays if no alias that is applied to it renames. -/
theorem renameType_registryAt_eq_self (hapart : NamesApart (referredTypes components))
    {rename : String → Alias → String}
    (hrename : ∀ item : Alias, item.exportName = item.localName →
      ∀ text, rename text item = text)
    (source : Path) (references : References) (text : String) :
    renameType rename (registryAt components i) source references text = text := by
  rw [renameType_eq_foldl]
  refine foldl_eq_self fun pair hpair => hrename pair.2 ?_ text
  obtain ⟨file, _, hfile⟩ := List.mem_flatMap.mp hpair
  obtain ⟨item, hitem, rfl⟩ := List.mem_map.mp hfile
  exact exportName_eq_of_mem_registryAt hapart hitem

/-- **Without collisions nothing is renamed.**  If no name is referred to in two files, every type
is exported under its own name, and the records show the types of properties, the payloads of events
and the signatures of methods as they were written. -/
theorem types_eq_written_of_apart (hapart : NamesApart (referredTypes components)) :
    (∀ file item, (file, item) ∈ (synthesize components).exports.pairs →
      item.exportName = item.localName) ∧
    ∀ i component, components[i]? = some component →
      (∀ j property, component.properties[j]? = some property →
        (synthesize components).propertyType? i j = some property.type.written) ∧
      (∀ j event, component.events[j]? = some event → event.type.written ≠ "" →
        (synthesize components).eventType? i j =
          some ("(event: CustomEvent<" ++ event.type.written ++ ">) => void")) ∧
      ∀ j method, component.methods[j]? = some method →
        (synthesize components).methodType? i j = some method.type.signature := by
  have hidentifiers := fun i => renameType_registryAt_eq_self (i := i) hapart
    fun _ => renameIdentifier_of_own_name
  have hoccurrences := fun i => renameType_registryAt_eq_self (i := i) hapart
    fun _ => renameOccurrences_of_own_name
  refine ⟨?_, fun i component hcomponent => ⟨?_, ?_, ?_⟩⟩
  · intro file item hitem
    rw [exports_synthesize] at hitem
    obtain ⟨other, hother, _⟩ := mem_pairs_importTable hitem
    exact exportName_eq_of_apart hapart hother
  · intro j property hproperty
    rw [propertyType?_synthesize hcomponent hproperty, hidentifiers]
  · intro j event hevent hwritten
    rw [eventType?_synthesize hcomponent hevent, eventType, if_neg hwritten, hidentifiers]
    rfl
  · intro j method hmethod
    rw [methodType?_synthesize hcomponent hmethod, hoccurrences]

/-- One name in two spellings of a file, and a name that stands inside another. -/
theorem types_eq_written_of_apart_size :
    let event := Event.ofType "resize"
      { ValueType.ofText "Size" with references := .ofPairs [("Size", .imported "./lib/../a.tsx")] }
    let method := Method.ofType "fit" { MethodType.ofSignature "(size: Sizes) => Size" "Size" with
      references := .ofPairs [("Size", .imported "/a.tsx"), ("Sizes", .here)] }
    let components := [declaringComponent "x-a" ⟨"/a.tsx"⟩ ["Size", "Size1"],
      { declaringComponent "x-b" ⟨"/b.tsx"⟩ ["Sizes"] with events := [event], methods := [method] }]
    NamesApart (referredTypes components) ∧
      (synthesize components).propertyType? 0 1 = some "Size1" ∧
      (synthesize components).eventType? 1 0 = some "(event: CustomEvent<Size>) => void" ∧
      (synthesize components).methodType? 1 0 = some "(size: Sizes) => Size" := by
  intro event method components
  have hapart : NamesApart (referredTypes components) := by decide
  obtain ⟨_, hrecords⟩ := types_eq_written_of_apart hapart
  exact ⟨hapart, (hrecords 0 _ rfl).1 1 _ rfl, (hrecords 1 _ rfl).2.1 0 _ rfl (by decide),
    (hrecords 1 _ rfl).2.2 0 _ rfl⟩

end WebComponents.Records
