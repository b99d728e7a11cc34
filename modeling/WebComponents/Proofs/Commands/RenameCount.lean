import Mathlib.Data.Finset.Card
import WebComponents.Commands.Types
import WebComponents.Proofs.Files.Refilling
import WebComponents.Proofs.Metadata.RoundTrip
import WebComponents.Proofs.Records.Orders

/-!
# How many types are renamed

The report on type records tells how many types are exported under another name than their own.  It
counts them at the end, by comparing names:

```text
/a.tsx   Size ↦ Size    Color ↦ Color
/b.tsx   Size ↦ Size1                       1 renamed,   4 types, 3 names
/c.tsx   Theme ↦ Theme
```

A name is kept by one file alone, the first that was registered with it, because a name with a
number after it is never the name itself.  So there are as many types that keep their names as there
are names (`card_localNames`), and all others are renamed.
-/

namespace WebComponents.Exports

/-- The registered types: each a file, told apart by its segments, with a name that it declares. -/
def Registry.types (registry : Registry) : Finset (List Path.Segment × String) :=
  (registry.pairs.map fun pair => (pair.1.segments, pair.2.localName)).toFinset

/-- The names of the registered types. -/
def Registry.localNames (registry : Registry) : Finset String :=
  (registry.pairs.map fun pair => pair.2.localName).toFinset

/-- The types that are exported under their own names. -/
def Registry.kept (registry : Registry) : List (Path × Alias) :=
  registry.pairs.filter fun pair => pair.2.localName = pair.2.exportName

/-- A type is renamed or keeps its name. -/
theorem renamedCount_add_length_kept (registry : Registry) :
    registry.renamedCount + registry.kept.length = registry.pairs.length := by
  rw [Registry.renamedCount, Registry.kept, ← List.countP_eq_length_filter,
    ← List.countP_eq_length_filter, Nat.add_comm,
    List.length_eq_countP_add_countP (fun pair => pair.2.localName = pair.2.exportName)]
  simp

end WebComponents.Exports

namespace WebComponents.Records

open Metadata Exports NameCounts

variable {components : List Component}

theorem pairwise_pairs_synthesize (components : List Component) :
    (synthesize components).exports.pairs.Pairwise fun s t => ¬ SameAlias s t := by
  rw [exports_synthesize]
  exact pairwise_pairs_importTable (pairwise_exportedTypes components)

/-- No type is listed twice. -/
theorem card_types (components : List Component) :
    (synthesize components).exports.types.card = (synthesize components).exports.pairs.length := by
  have hnodup : ((synthesize components).exports.pairs.map
      fun pair => (pair.1.segments, pair.2.localName)).Nodup := by
    apply List.pairwise_map.mpr
    refine (pairwise_pairs_synthesize components).imp fun hapart hsame => hapart ?_
    obtain ⟨hfile, hname⟩ := Prod.mk.inj hsame
    exact ⟨hfile, hname⟩
  rw [Registry.types, List.toFinset_card_of_nodup hnodup, List.length_map]

/-- Types of one local name in different files have different export names. -/
theorem same_of_exportName_eq {first second : Path × Alias}
    (hfirst : first ∈ (synthesize components).exports.pairs)
    (hsecond : second ∈ (synthesize components).exports.pairs)
    (hlocal : first.2.localName = second.2.localName)
    (hname : first.2.exportName = second.2.exportName) : first.1.Same second.1 := by
  obtain ⟨i, spelled, htype, hsame, hnumber⟩ := exists_number_of_mem_pairs hfirst
  obtain ⟨j, other, hother, hotherSame, hotherNumber⟩ := exists_number_of_mem_pairs hsecond
  rw [hlocal] at htype hnumber
  rw [hnumber, hotherNumber] at hname
  have hplace : i = j := countNamed_take_inj htype hother (numbered_inj.mp hname)
  rw [hplace, hother] at htype
  cases htype
  exact hsame.symm.trans hotherSame

/-- A name is kept by one file at most. -/
theorem nodup_localNames_kept (components : List Component) :
    ((synthesize components).exports.kept.map fun pair => pair.2.localName).Nodup := by
  apply List.pairwise_map.mpr
  refine ((pairwise_pairs_synthesize components).filter _).imp_of_mem ?_
  intro s t hs ht hapart hlocal
  obtain ⟨hpair, hkept⟩ := List.mem_filter.mp hs
  obtain ⟨hpair', hkept'⟩ := List.mem_filter.mp ht
  -- both are exported under the name that they share
  have hname : s.2.exportName = t.2.exportName := by
    rw [← of_decide_eq_true hkept, ← of_decide_eq_true hkept', hlocal]
  exact hapart ⟨same_of_exportName_eq hpair hpair' hlocal hname, hlocal⟩

/-- A name is kept by the first file that was registered with it. -/
theorem exists_mem_kept {pair : Path × Alias} (h : pair ∈ (synthesize components).exports.pairs) :
    ∃ first ∈ (synthesize components).exports.kept, first.2.localName = pair.2.localName := by
  obtain ⟨i, spelled, htype, -⟩ := exists_number_of_mem_pairs h
  have hpos : 0 < countNamed (distinctTypes components) pair.2.localName :=
    countNamed_pos_of_mem (List.mem_of_getElem? htype)
  obtain ⟨file, hfile⟩ := exists_mem_pairs_numbered hpos
  refine ⟨_, List.mem_filter.mpr ⟨hfile, ?_⟩, rfl⟩
  rw [numbered_zero]
  exact decide_eq_true rfl

/-- As many types keep their names as there are names. -/
theorem card_localNames (components : List Component) :
    (synthesize components).exports.localNames.card =
      (synthesize components).exports.kept.length := by
  have hnames : (synthesize components).exports.localNames =
      ((synthesize components).exports.kept.map fun pair => pair.2.localName).toFinset := by
    ext name
    rw [Registry.localNames, List.mem_toFinset, List.mem_toFinset, List.mem_map, List.mem_map]
    constructor
    · rintro ⟨pair, hpair, rfl⟩
      exact exists_mem_kept hpair
    · rintro ⟨pair, hpair, rfl⟩
      exact ⟨pair, List.mem_of_mem_filter hpair, rfl⟩
  rw [hnames, List.toFinset_card_of_nodup (nodup_localNames_kept components), List.length_map]

/-- Every type but the first of its name is renamed. -/
theorem renamedCount_add_card (components : List Component) :
    (synthesize components).exports.renamedCount +
      (synthesize components).exports.localNames.card =
        (synthesize components).exports.types.card := by
  rw [card_localNames, card_types, renamedCount_add_length_kept]

end WebComponents.Records

namespace WebComponents.Commands

open Files FileTree Report Records

variable {metadata : Path} {output? : Option Path} {tree : FileTree} {report : TypesReport}

/-- Components are read from a file that was written for them. -/
theorem readMetadata_of_lookup {location : Location} {components : List Metadata.Component}
    (hspot : tree.spotOf false metadata = .ok (.found location))
    (hfile : tree.lookup location =
      some (.file (Json.Value.array (components.map Metadata.Component.toJson)).compact.toUTF8)) :
    readMetadata tree metadata = .ok components := by
  have hcomponents : Metadata.readComponents
      (Json.Value.array (components.map Metadata.Component.toJson)).compact = .ok components :=
    Metadata.readsBack_component.list.roundTrips (by decide) components
  rw [readMetadata, readText_of_lookup hspot hfile]
  change (Metadata.readComponents _).mapError _ = _
  rw [hcomponents]
  rfl

/-- A report is on the metadata that was read, wherever the records go. -/
theorem readMetadata_of_types (h : (types metadata output? tree).1 = .ok report) :
    ∃ components, readMetadata tree metadata = .ok components ∧
      report.renamedCount = (synthesize components).exports.renamedCount := by
  unfold types at h
  split at h
  next => cases h
  next components hread =>
    refine ⟨components, hread, ?_⟩
    dsimp only at h
    split at h
    next =>
      cases h
      rfl
    next =>
      split at h
      next =>
        cases h
        rfl
      next => cases h

/-- **The count of renamed types.**  A report counts as many renamed types as there are registered
types more than names. -/
theorem types_renamedCount (h : (types metadata output? tree).1 = .ok report) :
    ∃ components, readMetadata tree metadata = .ok components ∧
      report.renamedCount + (synthesize components).exports.localNames.card =
        (synthesize components).exports.types.card := by
  obtain ⟨components, hread, hcount⟩ := readMetadata_of_types h
  refine ⟨components, hread, ?_⟩
  rw [hcount]
  exact renamedCount_add_card components

/-- The second `Size` is renamed, the first one and `Color` are not. -/
theorem types_renamedCount_size :
    let components := [declaringComponent "x-a" ⟨"/a.tsx"⟩ ["Size"],
      declaringComponent "x-b" ⟨"/b.tsx"⟩ ["Size", "Color"]]
    let text := (Json.Value.array (components.map Metadata.Component.toJson)).compact
    let tree : FileTree := ⟨[(["m.json"], .file text.toUTF8)], []⟩
    ∃ report, (types ⟨"/m.json"⟩ none tree).1 = .ok report ∧ report.renamedCount = 1 := by
  intro components text tree
  have hspot : tree.spotOf false ⟨"/m.json"⟩ = .ok (.found ["m.json"]) := by
    have hsteps : stepsOf "/m.json".toList = [.name "m.json"] := by decide
    exact spotOf_eq_found_iff.mpr ⟨checkPath_eq_ok (by decide) (by decide) (by decide),
      hsteps ▸ .file (by decide) rfl⟩
  have hread : readMetadata tree ⟨"/m.json"⟩ = .ok components := readMetadata_of_lookup hspot rfl
  obtain ⟨report, hreport⟩ : ∃ report, (types ⟨"/m.json"⟩ none tree).1 = .ok report :=
    ⟨_, by rw [types, hread]⟩
  refine ⟨report, hreport, ?_⟩
  obtain ⟨read, hsame, hcount⟩ := types_renamedCount hreport
  rw [hread] at hsame
  cases hsame
  have hnames : (synthesize components).exports.localNames.card = 2 := by decide
  have htypes : (synthesize components).exports.types.card = 3 := by decide
  rw [hnames, htypes] at hcount
  exact Nat.add_right_cancel hcount

end WebComponents.Commands
