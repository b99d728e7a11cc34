import Mathlib.Data.List.TakeDrop
import WebComponents.Proofs.Exports.Lengthening
import WebComponents.Proofs.Records.SingleReference

/-!
# Records made during the run

The records of a component are made when its own types are registered, and later components may
still add aliases to the same files.  Made once more at the end, its texts meet these aliases too:

```text
during the run    <Bar>(foo: Foo, bar: Bar) => void      /b.tsx   Foo
at the end        <Bar1>(foo: Foo, bar: Bar1) => void    /b.tsx   Foo, Bar ↦ Bar1
```

So the two agree as long as the aliases that came later leave the texts alone
(`RenamedText.IsSettled`).  For a text whose types come from one file there is no other way, because
a text that is renamed gets longer.
-/

namespace WebComponents.Records

open Metadata Exports

variable {components : List Component} {component : Component} {i : Nat}

/-! ## The texts of a component -/

/-- A text of a component that is renamed: how, and by the types that it refers to. -/
structure RenamedText where
  rename : String → Alias → String
  references : References
  text : String

/-- The texts of a component: the types of its properties and events, and the signatures of its
methods.  An event without a type has no text. -/
def renamedTexts (component : Component) : List RenamedText :=
  component.properties.map
      (fun property => ⟨renameIdentifier, property.type.references, property.type.written⟩) ++
    (component.events.filter fun event => event.type.written ≠ "").map
      (fun event => ⟨renameIdentifier, event.type.references, event.type.written⟩) ++
    component.methods.map
      fun method => ⟨renameOccurrences, method.type.references, method.type.signature⟩

/-- The text after the aliases of some files. -/
def RenamedText.after (renamed : RenamedText) (registry : Registry) (files : List Path) : String :=
  files.foldl (fun text file => ((registry.aliases? file).getD []).foldl renamed.rename text)
    renamed.text

/-- The text in the records. -/
def RenamedText.under (renamed : RenamedText) (registry : Registry) (source : Path) : String :=
  renamed.after registry (declaringFiles source renamed.references)

variable {registry other : Registry}

theorem propertyRecords_eq_iff :
    propertyRecords registry component = propertyRecords other component ↔
      ∀ property ∈ component.properties,
        renameType renameIdentifier registry component.source property.type.references
            property.type.written =
          renameType renameIdentifier other component.source property.type.references
            property.type.written := by
  rw [propertyRecords, propertyRecords, List.append_left_inj, List.map_inj_left]
  refine forall₂_congr fun property _ => ⟨congrArg TypeRecord.type, fun h => ?_⟩
  rw [propertyRecord, propertyRecord, h]

theorem eventType_eq_iff {source : Path} {type : ValueType} :
    eventType registry source type = eventType other source type ↔
      (type.written ≠ "" →
        renameType renameIdentifier registry source type.references type.written =
          renameType renameIdentifier other source type.references type.written) := by
  by_cases hwritten : type.written = ""
  · rw [eventType, eventType, if_pos hwritten, if_pos hwritten]
    exact iff_of_true rfl fun h => absurd hwritten h
  · rw [eventType, eventType, if_neg hwritten, if_neg hwritten, handlerType_inj]
    exact ⟨fun h _ => h, fun h => h hwritten⟩

theorem eventRecords_eq_iff :
    eventRecords registry component = eventRecords other component ↔
      ∀ event ∈ component.events, event.type.written ≠ "" →
        renameType renameIdentifier registry component.source event.type.references
            event.type.written =
          renameType renameIdentifier other component.source event.type.references
            event.type.written := by
  rw [eventRecords, eventRecords, List.map_inj_left]
  refine forall₂_congr fun event _ => ⟨fun h => ?_, fun h => ?_⟩
  · exact eventType_eq_iff.mp (congrArg TypeRecord.type h)
  · rw [eventRecord, eventRecord, eventType_eq_iff.mpr h]

theorem methodRecords_eq_iff :
    methodRecords registry component = methodRecords other component ↔
      ∀ method ∈ component.methods,
        renameType renameOccurrences registry component.source method.type.references
            method.type.signature =
          renameType renameOccurrences other component.source method.type.references
            method.type.signature := by
  rw [methodRecords, methodRecords, List.map_inj_left]
  refine forall₂_congr fun method _ => ⟨congrArg TypeRecord.type, fun h => ?_⟩
  rw [methodRecord, methodRecord, h]

/-- Two registries make the same records exactly if each text is the same under both. -/
theorem componentRecords_eq_iff :
    componentRecords registry component = componentRecords other component ↔
      ∀ renamed ∈ renamedTexts component,
        renamed.under registry component.source = renamed.under other component.source := by
  rw [componentRecords, componentRecords, ComponentRecords.mk.injEq, propertyRecords_eq_iff,
    eventRecords_eq_iff, methodRecords_eq_iff]
  simp only [renamedTexts, List.forall_mem_append, List.forall_mem_map, List.mem_filter,
    decide_eq_true_eq, and_imp, true_and, and_assoc]
  rfl

/-! ## Aliases that come later -/

/-- The aliases of a file that come after those of the first components up to place `i`. -/
def laterAliases (components : List Component) (i : Nat) (file : Path) : List Alias :=
  (((synthesize components).exports.aliases? file).getD []).drop
    (((registryAt components i).aliases? file).getD []).length

/-- The aliases of a file at the end are those of the run so far and then the later ones. -/
theorem getD_aliases?_synthesize (components : List Component) (i : Nat) (file : Path) :
    ((synthesize components).exports.aliases? file).getD [] =
      ((registryAt components i).aliases? file).getD [] ++ laterAliases components i file := by
  have hstarts : ((registryAt components i).aliases? file).getD [] <+:
      ((synthesize components).exports.aliases? file).getD [] := by
    rw [getD_aliases?_registryAt, exports_synthesize, getD_aliases?_importTable]
    exact ((exportedTypes_take_initial components (i + 1)).filter _).map _
  exact (List.prefix_iff_eq_append.mp hstarts).symm

theorem exists_numbered_of_mem_laterAliases {file : Path} {item : Alias}
    (h : item ∈ laterAliases components i file) :
    ∃ k, item.exportName = NameCounts.numbered item.localName k := by
  have hmem := List.mem_of_mem_drop h
  rw [exports_synthesize, getD_aliases?_importTable] at hmem
  exact exists_numbered hmem

/-- The later aliases of each file leave the text alone that they would meet there. -/
def RenamedText.IsSettled (renamed : RenamedText) (components : List Component) (i : Nat)
    (source : Path) : Prop :=
  ∀ k, (h : k < (declaringFiles source renamed.references).length) →
    ∀ item ∈ laterAliases components i (declaringFiles source renamed.references)[k],
      renamed.rename (renamed.after (registryAt components i)
          ((declaringFiles source renamed.references).take (k + 1))) item =
        renamed.after (registryAt components i)
          ((declaringFiles source renamed.references).take (k + 1))

instance (renamed : RenamedText) (components : List Component) (i : Nat) (source : Path) :
    Decidable (renamed.IsSettled components i source) :=
  inferInstanceAs (Decidable (∀ k, (h : k < (declaringFiles source renamed.references).length) →
    ∀ item ∈ laterAliases components i (declaringFiles source renamed.references)[k],
      renamed.rename (renamed.after (registryAt components i)
          ((declaringFiles source renamed.references).take (k + 1))) item =
        renamed.after (registryAt components i)
          ((declaringFiles source renamed.references).take (k + 1))))

variable {renamed : RenamedText} {source : Path}

theorem RenamedText.after_concat (renamed : RenamedText) (registry : Registry) (files : List Path)
    (file : Path) :
    renamed.after registry (files ++ [file]) =
      ((registry.aliases? file).getD []).foldl renamed.rename (renamed.after registry files) :=
  List.foldl_concat ..

/-- One more file at the end of the run: its early aliases, then its later ones. -/
theorem RenamedText.after_synthesize_concat {files : List Path}
    (h : renamed.after (synthesize components).exports files =
      renamed.after (registryAt components i) files) (file : Path) :
    renamed.after (synthesize components).exports (files ++ [file]) =
      (laterAliases components i file).foldl renamed.rename
        (renamed.after (registryAt components i) (files ++ [file])) := by
  calc
    renamed.after (synthesize components).exports (files ++ [file])
    _ = (((registryAt components i).aliases? file).getD [] ++
          laterAliases components i file).foldl renamed.rename
          (renamed.after (registryAt components i) files) := by
      rw [after_concat, getD_aliases?_synthesize components i, h]
    _ = (laterAliases components i file).foldl renamed.rename
          (renamed.after (registryAt components i) (files ++ [file])) := by
      rw [List.foldl_append, ← after_concat]

/-- A settled text is the same at the end of the run. -/
theorem RenamedText.IsSettled.under_eq (h : renamed.IsSettled components i source) :
    renamed.under (synthesize components).exports source =
      renamed.under (registryAt components i) source := by
  -- file by file: the later aliases of the next file find nothing to change
  have htake (k : Nat) (hk : k ≤ (declaringFiles source renamed.references).length) :
      renamed.after (synthesize components).exports
          ((declaringFiles source renamed.references).take k) =
        renamed.after (registryAt components i)
          ((declaringFiles source renamed.references).take k) := by
    induction k with
    | zero => rfl
    | succ k ih =>
        have hsettled := h k hk
        rw [← List.take_concat_get' _ k hk] at hsettled ⊢
        rw [after_synthesize_concat (ih (Nat.le_of_succ_le hk))]
        exact foldl_eq_self hsettled
  have hall := htake _ (Nat.le_refl _)
  rwa [List.take_length] at hall

/-- A text of a component is renamed in one of two ways, and both lengthen it. -/
theorem lengthens_of_mem_renamedTexts (h : renamed ∈ renamedTexts component) :
    Lengthens renamed.rename := by
  simp only [renamedTexts, List.mem_append, List.mem_map] at h
  obtain (⟨_, _, rfl⟩ | ⟨_, _, rfl⟩) | ⟨_, _, rfl⟩ := h
  · exact lengthens_renameIdentifier
  · exact lengthens_renameIdentifier
  · exact lengthens_renameOccurrences

/-- A text with the types of one file that is the same at the end of the run is settled. -/
theorem RenamedText.isSettled_of_under_eq (hrename : Lengthens renamed.rename)
    (hfiles : (declaringFiles source renamed.references).length ≤ 1)
    (h : renamed.under (synthesize components).exports source =
      renamed.under (registryAt components i) source) :
    renamed.IsSettled components i source := by
  intro k hk
  obtain ⟨file, hfile⟩ := List.length_eq_one_iff.mp (Nat.le_antisymm hfiles (by omega))
  simp only [under, hfile] at h hk ⊢
  obtain rfl : k = 0 := by simpa using hk
  have hend := @after_synthesize_concat components i renamed [] rfl file
  rw [List.nil_append, h] at hend
  exact (hrename.foldl_eq_self_iff (fun _ => exists_numbered_of_mem_laterAliases) _).mp hend.symm

/-! ## The records -/

/-- **Records and the final registry.**  The records of a component are made with the registry of
the components up to it.  They are those that the final registry would make if all texts are settled
by then; where each text has the types of one file at most, they are so only then. -/
theorem getElem?_components_synthesize_settled (hcomponent : components[i]? = some component) :
    (synthesize components).components[i]? =
        some (componentRecords (synthesize (components.take (i + 1))).exports component) ∧
      ((∀ renamed ∈ renamedTexts component, renamed.IsSettled components i component.source) →
        (synthesize components).components[i]? =
          some (componentRecords (synthesize components).exports component)) ∧
      ((∀ renamed ∈ renamedTexts component,
          (declaringFiles component.source renamed.references).length ≤ 1) →
        (synthesize components).components[i]? =
            some (componentRecords (synthesize components).exports component) →
          ∀ renamed ∈ renamedTexts component,
            renamed.IsSettled components i component.source) := by
  have hrecords : (synthesize components).components[i]? =
      some (componentRecords (registryAt components i) component) := by
    rw [getElem?_components_synthesize, hcomponent]
    rfl
  refine ⟨hrecords, fun hsettled => ?_, fun hfiles hend renamed hrenamed => ?_⟩
  · rw [hrecords, Option.some_inj, componentRecords_eq_iff]
    exact fun renamed hrenamed => (hsettled renamed hrenamed).under_eq.symm
  · rw [hrecords, Option.some_inj, componentRecords_eq_iff] at hend
    exact RenamedText.isSettled_of_under_eq (lengthens_of_mem_renamedTexts hrenamed)
      (hfiles renamed hrenamed) (hend renamed hrenamed).symm

/-- The second component declares a method, and the third one brings `Bar` into its file. -/
def componentsAroundMethod (signature : String) : List Component :=
  [declaringComponent "x-a" ⟨"/a.tsx"⟩ ["Bar"],
    { Component.ofTag "x-b" ⟨"/b.tsx"⟩ with
      methods := [Method.ofType "show"
        { MethodType.ofSignature signature "void" with references := .ofPairs [("Foo", .here)] }] },
    declaringComponent "x-c" ⟨"/b.tsx"⟩ ["Bar"]]

/-- A signature without `Bar` is the same during the run and at the end. -/
theorem records_settled_foo :
    let components := componentsAroundMethod "(foo: Foo) => void"
    ∃ component, components[1]? = some component ∧
      laterAliases components 1 ⟨"/b.tsx"⟩ = [⟨"Bar", "Bar1"⟩] ∧
      (synthesize components).components[1]? =
        some (componentRecords (synthesize components).exports component) := by
  intro components
  have hcomponent : components[1]? = some _ := rfl
  obtain ⟨_, hsettled, _⟩ := getElem?_components_synthesize_settled hcomponent
  exact ⟨_, hcomponent, by decide, hsettled (by decide)⟩

/-- A type parameter `Bar` keeps its name during the run and would lose it at the end. -/
theorem records_not_settled_bar :
    ¬ ∀ (components : List Component) (i : Nat) (component : Component),
      components[i]? = some component →
        (synthesize components).components[i]? =
          some (componentRecords (synthesize components).exports component) := by
  intro hagree
  have hrecords := hagree (componentsAroundMethod "<Bar>(foo: Foo, bar: Bar) => void") 1 _ rfl
  revert hrecords
  decide

end WebComponents.Records
