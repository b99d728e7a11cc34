import Mathlib.Data.List.Nodup
import WebComponents.Proofs.Exports.Handouts
import WebComponents.Proofs.Records.ExportNames

/-!
# Components in another order

The order of the components decides which type of a name comes first and so which one gets which
number.  It does not decide which types are registered (`registers_synthesize_iff`), and the numbers
of a name are all those below the count of its files (`mem_exportNames_synthesize_iff`), whatever
the order:

```text
x-a, x-b    /a.tsx  Foo ↦ Foo     /b.tsx  Foo ↦ Foo1
x-b, x-a    /b.tsx  Foo ↦ Foo     /a.tsx  Foo ↦ Foo1
```

So another order only hands the same export names to other files (`synthesize_perm`).
-/

namespace WebComponents.Exports

/-! ## What a registry says about a name -/

/-- The registry lists the name under the file, however it spells the file. -/
def Registry.Registers (registry : Registry) (file : Path) (name : String) : Prop :=
  ∃ pair ∈ registry.pairs, pair.1.Same file ∧ pair.2.localName = name

/-- The registered types of a name. -/
def Registry.typesOf (registry : Registry) (name : String) : List (Path × Alias) :=
  registry.pairs.filter fun pair => pair.2.localName = name

/-- The files under which a name is listed. -/
def Registry.filesOf (registry : Registry) (name : String) : List Path :=
  (registry.typesOf name).map (·.1)

/-- The names under which the types of a name are exported. -/
def Registry.exportNames (registry : Registry) (name : String) : List String :=
  (registry.typesOf name).map (·.2.exportName)

theorem Registry.mem_exportNames {registry : Registry} {name exportName : String} :
    exportName ∈ registry.exportNames name ↔
      ∃ file, (file, Alias.mk name exportName) ∈ registry.pairs := by
  simp only [exportNames, typesOf, List.mem_map, List.mem_filter, decide_eq_true_eq]
  constructor
  · rintro ⟨⟨file, localName, _⟩, ⟨hpair, rfl⟩, rfl⟩
    exact ⟨file, hpair⟩
  · rintro ⟨file, hpair⟩
    exact ⟨_, ⟨hpair, rfl⟩, rfl⟩

theorem Registry.registers_iff {registry : Registry} {file : Path} {name : String} :
    registry.Registers file name ↔ ∃ listed ∈ registry.filesOf name, listed.Same file := by
  simp only [Registers, filesOf, typesOf, List.mem_map, List.mem_filter, decide_eq_true_eq]
  constructor
  · rintro ⟨pair, hpair, hsame, hname⟩
    exact ⟨pair.1, ⟨pair, ⟨hpair, hname⟩, rfl⟩, hsame⟩
  · rintro ⟨_, ⟨pair, ⟨hpair, hname⟩, rfl⟩, hsame⟩
    exact ⟨pair, hpair, hsame, hname⟩

/-! ## Counting files -/

/-- Lists of different files that hold the same files, in whichever spelling, are equally long. -/
theorem length_eq_of_same_files {files more : List Path}
    (hfiles : files.Pairwise fun file other => ¬ file.Same other)
    (hmore : more.Pairwise fun file other => ¬ file.Same other)
    (h : ∀ file, (∃ listed ∈ files, listed.Same file) ↔ ∃ listed ∈ more, listed.Same file) :
    files.length = more.length := by
  -- a file is its segments here, so different files are different lists
  have hnodup : (files.map Path.segments).Nodup := List.pairwise_map.mpr hfiles
  have hnodupMore : (more.map Path.segments).Nodup := List.pairwise_map.mpr hmore
  have hperm : (files.map Path.segments).Perm (more.map Path.segments) := by
    rw [List.perm_ext_iff_of_nodup hnodup hnodupMore]
    intro segments
    rw [List.mem_map, List.mem_map]
    constructor
    · rintro ⟨file, hfile, rfl⟩
      exact (h file).mp ⟨file, hfile, Path.Same.refl file⟩
    · rintro ⟨file, hfile, rfl⟩
      exact (h file).mpr ⟨file, hfile, Path.Same.refl file⟩
  calc
    files.length = (files.map Path.segments).length := (List.length_map _).symm
    _ = (more.map Path.segments).length := hperm.length_eq
    _ = more.length := List.length_map _

end WebComponents.Exports

namespace WebComponents.Records

open Metadata Exports NameCounts

variable {components others : List Component} {file : Path} {name exportName : String}

/-! ## One run -/

/-- A run registers the types that its components refer to. -/
theorem registers_synthesize_iff :
    (synthesize components).exports.Registers file name ↔
      ∃ type ∈ referredTypes components, SameType (file, name) type := by
  constructor
  · rintro ⟨⟨listed, item⟩, hpair, hfile, rfl⟩
    obtain ⟨i, other, htype, hsame, _⟩ := exists_number_of_mem_pairs hpair
    have hmem : (other, item.localName) ∈ referredTypes components :=
      mem_of_mem_firsts (List.mem_of_getElem? htype)
    exact ⟨_, hmem, (hsame.trans hfile).symm, rfl⟩
  · rintro ⟨type, htype, hsame⟩
    obtain ⟨first, hfirst, hfirstSame⟩ := exists_mem_firsts sameType_equivalence htype
    obtain ⟨i, hget⟩ := List.mem_iff_getElem?.mp hfirst
    have hexported : (first.1, Alias.mk first.2
        (numbered first.2 (countNamed ((distinctTypes components).take i) first.2))) ∈
        exportedTypes components :=
      mem_numberTypes.mpr ⟨i, hget, rfl⟩
    obtain ⟨listed, hpair, hlisted⟩ := exists_mem_pairs_importTable hexported
    have hall := sameType_equivalence.trans hsame hfirstSame
    rw [← exports_synthesize] at hpair
    exact ⟨_, hpair, hlisted.trans hall.1.symm, hall.2.symm⟩

theorem pairwise_exportedTypes (components : List Component) :
    (exportedTypes components).Pairwise fun s t => ¬ SameAlias s t := by
  have hdistinct := pairwise_firsts SameType (referredTypes components)
  rw [← map_numberTypes (firsts SameType (referredTypes components)), List.pairwise_map]
    at hdistinct
  exact hdistinct.imp fun hapart hsame => hapart (sameType_equivalence.symm hsame)

/-- A name is listed once under a file. -/
theorem pairwise_filesOf_synthesize (components : List Component) (name : String) :
    ((synthesize components).exports.filesOf name).Pairwise
      fun file other => ¬ file.Same other := by
  have hpairs := pairwise_pairs_importTable (pairwise_exportedTypes components)
  rw [← exports_synthesize] at hpairs
  rw [Registry.filesOf, List.pairwise_map]
  refine (hpairs.filter _).imp_of_mem fun {s t} hs ht hapart hsame => hapart ⟨hsame, ?_⟩
  have hname : s.2.localName = name := by simpa using List.of_mem_filter hs
  have hother : t.2.localName = name := by simpa using List.of_mem_filter ht
  exact hname.trans hother.symm

/-- A name is listed under as many files as there are different types of that name. -/
theorem length_filesOf_synthesize (components : List Component) (name : String) :
    ((synthesize components).exports.filesOf name).length =
      countNamed (distinctTypes components) name := by
  have hdistinct : (((distinctTypes components).filter fun type => type.2 = name).map
      (·.1)).Pairwise fun file other => ¬ file.Same other := by
    rw [List.pairwise_map]
    refine ((pairwise_firsts SameType _).filter _).imp_of_mem ?_
    intro s t hs ht hapart hsame
    have hname : s.2 = name := by simpa using List.of_mem_filter hs
    have hother : t.2 = name := by simpa using List.of_mem_filter ht
    exact hapart ⟨hsame.symm, hother.trans hname.symm⟩
  have hsame (file : Path) :
      (∃ listed ∈ (synthesize components).exports.filesOf name, listed.Same file) ↔
        ∃ listed ∈ ((distinctTypes components).filter fun type => type.2 = name).map (·.1),
          listed.Same file := by
    rw [← Registry.registers_iff, registers_synthesize_iff,
      ← exists_same_firsts_iff sameType_equivalence]
    simp only [List.mem_map, List.mem_filter, decide_eq_true_eq]
    constructor
    · rintro ⟨type, htype, hsame⟩
      exact ⟨type.1, ⟨type, ⟨htype, hsame.2.symm⟩, rfl⟩, hsame.1.symm⟩
    · rintro ⟨_, ⟨type, ⟨htype, hname⟩, rfl⟩, hsame⟩
      exact ⟨type, htype, hsame.symm, hname.symm⟩
  calc
    ((synthesize components).exports.filesOf name).length
    _ = (((distinctTypes components).filter fun type => type.2 = name).map (·.1)).length :=
      length_eq_of_same_files (pairwise_filesOf_synthesize components name) hdistinct hsame
    _ = countNamed (distinctTypes components) name := by
      rw [List.length_map, countNamed, List.countP_eq_length_filter]

/-- The export names of a name are numbered up to the count of its files. -/
theorem mem_exportNames_synthesize_iff :
    exportName ∈ (synthesize components).exports.exportNames name ↔
      ∃ k < ((synthesize components).exports.filesOf name).length,
        exportName = if k = 0 then name else name ++ toString k := by
  rw [Registry.mem_exportNames, length_filesOf_synthesize]
  constructor
  · rintro ⟨file, hpair⟩
    obtain ⟨i, other, htype, _, hnumber⟩ := exists_number_of_mem_pairs hpair
    exact ⟨_, countNamed_take_lt htype, hnumber⟩
  · rintro ⟨k, hk, rfl⟩
    exact exists_mem_pairs_numbered hk

/-! ## Two orders -/

theorem referredTypes_perm (h : components.Perm others) :
    (referredTypes components).Perm (referredTypes others) :=
  h.flatMap_right _

/-- **The order only permutes the numbers.**  Components in another order register the same types,
and the types of a name share the same export names: the name itself and then the name with 1, 2 and
so on, as many as there are files. -/
theorem synthesize_perm (h : components.Perm others) :
    (∀ file name, (synthesize components).exports.Registers file name ↔
      (synthesize others).exports.Registers file name) ∧
    ∀ name,
      (∀ exportName, exportName ∈ (synthesize components).exports.exportNames name ↔
        exportName ∈ (synthesize others).exports.exportNames name) ∧
      ((synthesize components).exports.filesOf name).Pairwise
        (fun file other => ¬ file.Same other) ∧
      ∀ exportName, exportName ∈ (synthesize components).exports.exportNames name ↔
        ∃ k < ((synthesize components).exports.filesOf name).length,
          exportName = if k = 0 then name else name ++ toString k := by
  have hregisters (file : Path) (name : String) :
      (synthesize components).exports.Registers file name ↔
        (synthesize others).exports.Registers file name := by
    rw [registers_synthesize_iff, registers_synthesize_iff]
    exact exists_congr fun type => and_congr_left fun _ => (referredTypes_perm h).mem_iff
  refine ⟨hregisters, fun name => ⟨fun exportName => ?_,
    pairwise_filesOf_synthesize components name, fun _ => mem_exportNames_synthesize_iff⟩⟩
  have hlength := length_eq_of_same_files (pairwise_filesOf_synthesize components name)
    (pairwise_filesOf_synthesize others name) fun file => by
      rw [← Registry.registers_iff, ← Registry.registers_iff]
      exact hregisters file name
  rw [mem_exportNames_synthesize_iff, mem_exportNames_synthesize_iff, hlength]

/-- Of two types `Foo` the first one keeps its name, in each order another one. -/
theorem synthesize_perm_foo :
    let first := declaringComponent "x-a" ⟨"/a.tsx"⟩ ["Foo"]
    let second := declaringComponent "x-b" ⟨"/b.tsx"⟩ ["Foo"]
    (synthesize [first, second]).exports.exportName? ⟨"/a.tsx"⟩ "Foo" = some "Foo" ∧
      (synthesize [second, first]).exports.exportName? ⟨"/a.tsx"⟩ "Foo" = some "Foo1" ∧
      ∀ exportName, exportName ∈ (synthesize [first, second]).exports.exportNames "Foo" ↔
        exportName ∈ (synthesize [second, first]).exports.exportNames "Foo" := by
  intro first second
  obtain ⟨_, hnames⟩ := synthesize_perm (List.Perm.swap second first [])
  exact ⟨by decide, by decide, (hnames "Foo").1⟩

end WebComponents.Records
