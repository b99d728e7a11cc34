import Mathlib.Data.List.Induction
import WebComponents.Proofs.Exports.Numbered
import WebComponents.Exports.Rename

/-!
# The registry as a table of first sights

A run of registrations is a stream of types, and the registry at its end depends on the stream
alone.  This file writes the registry down without any state:

* `firsts SameType` keeps of each type the first sight, where types are the same if they have one
  name and their files have the same segments;
* `numberTypes` gives each of these its export name, numbered by how many types of that name came
  before;
* `importTable` groups them by file, in order of first sight and under the first spelling.

The link is `Tabulates`, which also says what the counts are.  One registration keeps it
(`Tabulates.register`), so a whole run has it (`tabulates_registerAll`).
-/

namespace WebComponents.Exports

open NameCounts

/-! ## First sights -/

section Firsts

variable {α : Type} (same : α → α → Prop) [DecidableRel same]

/-- The elements that are not the same as one before them. -/
def firsts : List α → List α
  | [] => []
  | a :: rest => a :: (firsts rest).filter fun b => ¬ same b a

variable {same}

theorem mem_of_mem_firsts {a : α} {list : List α} (h : a ∈ firsts same list) : a ∈ list := by
  induction list with
  | nil => exact h
  | cons b rest ih =>
      rcases List.mem_cons.mp h with rfl | h
      · exact List.mem_cons_self
      · exact List.mem_cons_of_mem _ (ih (List.mem_of_mem_filter h))

theorem firsts_eq_self {list : List α} (h : list.Pairwise fun a b => ¬ same b a) :
    firsts same list = list := by
  induction list with
  | nil => rfl
  | cons a rest ih =>
      obtain ⟨hfirst, hrest⟩ := List.pairwise_cons.mp h
      rw [firsts, ih hrest, List.filter_eq_self.mpr]
      intro b hb
      simpa using hfirst b hb

theorem firsts_of_forall_same {a : α} {rest : List α} (h : ∀ b ∈ rest, same b a) :
    firsts same (a :: rest) = [a] := by
  rw [firsts, List.filter_eq_nil_iff.mpr]
  intro b hb
  simpa using h b (mem_of_mem_firsts hb)

/-- A new element comes last, and one that was seen changes nothing. -/
theorem firsts_concat (list : List α) (b : α) :
    firsts same (list ++ [b]) =
      if ∃ a ∈ list, same b a then firsts same list else firsts same list ++ [b] := by
  induction list with
  | nil => simp [firsts]
  | cons a rest ih =>
      simp only [List.cons_append, firsts, ih, List.exists_mem_cons_iff]
      by_cases hrest : ∃ c ∈ rest, same b c
      · rw [if_pos hrest, if_pos (Or.inr hrest)]
      · by_cases ha : same b a <;> simp [hrest, ha]

variable (same) in
theorem firsts_prefix_append (list more : List α) :
    firsts same list <+: firsts same (list ++ more) := by
  induction more using List.reverseRecOn with
  | nil => simp
  | append_singleton more b ih =>
      rw [← List.append_assoc, firsts_concat]
      split
      · exact ih
      · exact ih.trans (List.prefix_append _ _)

variable (same) in
theorem pairwise_firsts (list : List α) :
    (firsts same list).Pairwise fun a b => ¬ same b a := by
  induction list with
  | nil => exact List.Pairwise.nil
  | cons a rest ih =>
      refine List.pairwise_cons.mpr ⟨?_, ih.filter _⟩
      intro b hb
      simpa using List.of_mem_filter hb

theorem exists_mem_firsts (hsame : Equivalence same) {a : α} {list : List α} (h : a ∈ list) :
    ∃ b ∈ firsts same list, same a b := by
  induction list using List.reverseRecOn generalizing a with
  | nil => simp at h
  | append_singleton rest c ih =>
      rw [firsts_concat]
      by_cases hseen : ∃ d ∈ rest, same c d
      · rw [if_pos hseen]
        rcases List.mem_append.mp h with h | h
        · exact ih h
        · obtain rfl := List.mem_singleton.mp h
          obtain ⟨d, hd, had⟩ := hseen
          obtain ⟨b, hb, hdb⟩ := ih hd
          exact ⟨b, hb, hsame.trans had hdb⟩
      · rw [if_neg hseen]
        rcases List.mem_append.mp h with h | h
        · obtain ⟨b, hb, hab⟩ := ih h
          exact ⟨b, List.mem_append_left _ hb, hab⟩
        · obtain rfl := List.mem_singleton.mp h
          exact ⟨a, List.mem_append_right _ List.mem_cons_self, hsame.refl a⟩

theorem exists_same_firsts_iff (hsame : Equivalence same) {a : α} {list : List α} :
    (∃ b ∈ firsts same list, same a b) ↔ ∃ b ∈ list, same a b := by
  constructor
  · rintro ⟨b, hb, hab⟩
    exact ⟨b, mem_of_mem_firsts hb, hab⟩
  · rintro ⟨b, hb, hab⟩
    obtain ⟨c, hc, hbc⟩ := exists_mem_firsts hsame hb
    exact ⟨c, hc, hsame.trans hab hbc⟩

end Firsts

/-! ## Numbering -/

/-- Types with one name, in files with the same segments. -/
def SameType (s t : Path × String) : Prop :=
  s.1.Same t.1 ∧ s.2 = t.2

instance : DecidableRel SameType := fun s t =>
  inferInstanceAs (Decidable (s.1.Same t.1 ∧ s.2 = t.2))

theorem sameType_equivalence : Equivalence SameType where
  refl type := ⟨Path.Same.refl type.1, rfl⟩
  symm h := ⟨h.1.symm, h.2.symm⟩
  trans h h' := ⟨h.1.trans h'.1, h.2.trans h'.2⟩

theorem same_equivalence : Equivalence Path.Same where
  refl := Path.Same.refl
  symm := Path.Same.symm
  trans := Path.Same.trans

/-- How many of the types have the name. -/
def countNamed (types : List (Path × String)) (name : String) : Nat :=
  types.countP fun type => type.2 = name

theorem countNamed_concat (types : List (Path × String)) (type : Path × String) (name : String) :
    countNamed (types ++ [type]) name =
      if type.2 = name then countNamed types name + 1 else countNamed types name := by
  by_cases hname : type.2 = name <;> simp [countNamed, hname]

theorem countNamed_take_succ {types : List (Path × String)} {i : Nat} {file : Path} {name : String}
    (h : types[i]? = some (file, name)) :
    countNamed (types.take (i + 1)) name = countNamed (types.take i) name + 1 := by
  rw [List.take_add_one, h, Option.toList_some, countNamed_concat, if_pos rfl]

theorem countNamed_mono {types more : List (Path × String)} (h : types.Sublist more)
    (name : String) :
    countNamed types name ≤ countNamed more name :=
  h.countP_le

theorem countNamed_take_lt {types : List (Path × String)} {i : Nat} {file : Path} {name : String}
    (h : types[i]? = some (file, name)) :
    countNamed (types.take i) name < countNamed types name := by
  have hle := countNamed_mono (List.take_sublist (i + 1) types) name
  rw [countNamed_take_succ h] at hle
  exact hle

/-- Two types of one name have different numbers of such types before them. -/
theorem countNamed_take_inj {types : List (Path × String)} {i j : Nat} {file other : Path}
    {name : String} (hi : types[i]? = some (file, name)) (hj : types[j]? = some (other, name))
    (h : countNamed (types.take i) name = countNamed (types.take j) name) : i = j := by
  have hisucc := countNamed_take_succ hi
  have hjsucc := countNamed_take_succ hj
  rcases Nat.lt_trichotomy i j with hlt | heq | hgt
  · have hle : countNamed (types.take (i + 1)) name ≤ countNamed (types.take j) name :=
      countNamed_mono (List.take_sublist_take_left hlt) name
    omega
  · exact heq
  · have hle : countNamed (types.take (j + 1)) name ≤ countNamed (types.take i) name :=
      countNamed_mono (List.take_sublist_take_left hgt) name
    omega

/-- Every number below the count is met. -/
theorem exists_countNamed_take {types : List (Path × String)} {name : String} {k : Nat}
    (h : k < countNamed types name) :
    ∃ i file, types[i]? = some (file, name) ∧ countNamed (types.take i) name = k := by
  induction types using List.reverseRecOn with
  | nil => simp [countNamed] at h
  | append_singleton types type ih =>
      rw [countNamed_concat] at h
      rcases Nat.lt_or_ge k (countNamed types name) with hlt | hge
      · obtain ⟨i, file, htype, hcount⟩ := ih hlt
        have hi : i < types.length := (List.getElem?_eq_some_iff.mp htype).1
        refine ⟨i, file, ?_, ?_⟩
        · rw [List.getElem?_append_left hi, htype]
        · rw [List.take_append_of_le_length (Nat.le_of_lt hi), hcount]
      · split at h
        · rename_i hname
          refine ⟨types.length, type.1, ?_, ?_⟩
          · rw [List.getElem?_concat_length, ← hname]
          · rw [List.take_left]
            omega
        · omega

/-- The types with their export names, numbered by the types of the same name before them. -/
def numberTypes (types : List (Path × String)) : List (Path × Alias) :=
  types.mapIdx fun i type => (type.1, ⟨type.2, numbered type.2 (countNamed (types.take i) type.2)⟩)

theorem numberTypes_concat (types : List (Path × String)) (type : Path × String) :
    numberTypes (types ++ [type]) =
      numberTypes types ++ [(type.1, ⟨type.2, numbered type.2 (countNamed types type.2)⟩)] := by
  unfold numberTypes
  rw [List.mapIdx_concat, List.take_left]
  congr 1
  apply List.ext_getElem
  · simp
  · intro i hi hi'
    have hle : i ≤ types.length := by
      simp only [List.length_mapIdx] at hi
      omega
    simp [List.take_append_of_le_length hle]

/-- Numbering keeps the types. -/
theorem map_numberTypes (types : List (Path × String)) :
    (numberTypes types).map (fun pair => (pair.1, pair.2.localName)) = types := by
  apply List.ext_getElem <;> simp [numberTypes]

theorem numberTypes_prefix_append (types more : List (Path × String)) :
    numberTypes types <+: numberTypes (types ++ more) := by
  induction more using List.reverseRecOn with
  | nil => simp
  | append_singleton more type ih =>
      rw [← List.append_assoc, numberTypes_concat]
      exact ih.trans (List.prefix_append _ _)

theorem mem_numberTypes {types : List (Path × String)} {file : Path} {item : Alias} :
    (file, item) ∈ numberTypes types ↔
      ∃ i, types[i]? = some (file, item.localName) ∧
        item.exportName = numbered item.localName (countNamed (types.take i) item.localName) := by
  rw [List.mem_iff_getElem?]
  refine exists_congr fun i => ?_
  rw [numberTypes, List.getElem?_mapIdx, Option.map_eq_some_iff]
  constructor
  · rintro ⟨⟨_, _⟩, htype, heq⟩
    cases heq
    exact ⟨htype, rfl⟩
  · rintro ⟨htype, hname⟩
    exact ⟨_, htype, by rw [← hname]⟩

/-! ## Grouping by file -/

/-- The types of a file, in order. -/
def aliasesOf (named : List (Path × Alias)) (file : Path) : List Alias :=
  (named.filter fun pair => pair.1.Same file).map (·.2)

/-- The types grouped by file, in order of first sight. -/
def importTable (named : List (Path × Alias)) : List DeclaringFile :=
  (firsts Path.Same (named.map (·.1))).map fun file => ⟨file, aliasesOf named file⟩

theorem aliasesOf_concat (named : List (Path × Alias)) (file other : Path) (item : Alias) :
    aliasesOf (named ++ [(file, item)]) other =
      if file.Same other then aliasesOf named other ++ [item] else aliasesOf named other := by
  by_cases h : file.Same other <;> simp [aliasesOf, h]

theorem aliasesOf_eq_nil {named : List (Path × Alias)} {file : Path} :
    aliasesOf named file = [] ↔ ¬ ∃ pair ∈ named, pair.1.Same file := by
  simp [aliasesOf]

/-- The spelling of the file does not matter. -/
theorem aliasesOf_congr {named : List (Path × Alias)} {file other : Path} (h : file.Same other) :
    aliasesOf named file = aliasesOf named other := by
  unfold aliasesOf
  congr 1
  refine List.filter_congr fun pair _ => ?_
  exact decide_eq_decide.mpr ⟨fun hfile => hfile.trans h, fun hother => hother.trans h.symm⟩

theorem addTo_of_new {file : Path} {item : Alias} {entries : List DeclaringFile}
    (h : ∀ entry ∈ entries, ¬ entry.file.Same file) :
    Registry.addTo file item entries = entries ++ [⟨file, [item]⟩] := by
  induction entries with
  | nil => rfl
  | cons entry entries ih =>
      rw [Registry.addTo, if_neg (h entry List.mem_cons_self),
        ih fun other hother => h other (List.mem_cons_of_mem _ hother), List.cons_append]

theorem addTo_of_known {file : Path} {item : Alias} {entries : List DeclaringFile}
    (hdistinct : entries.Pairwise fun earlier later => ¬ later.file.Same earlier.file)
    (h : ∃ entry ∈ entries, entry.file.Same file) :
    Registry.addTo file item entries = entries.map fun entry =>
      if entry.file.Same file then ⟨entry.file, entry.aliases ++ [item]⟩ else entry := by
  induction entries with
  | nil => simp at h
  | cons entry entries ih =>
      rw [List.pairwise_cons] at hdistinct
      rw [Registry.addTo, List.map_cons]
      by_cases hentry : entry.file.Same file
      · -- no later entry is for the file
        rw [if_pos hentry, if_pos hentry]
        have hrest : ∀ other ∈ entries, (if other.file.Same file then
            ⟨other.file, other.aliases ++ [item]⟩ else other) = id other := by
          intro other hother
          exact if_neg fun hsame => hdistinct.1 other hother (hsame.trans hentry.symm)
        rw [List.map_congr_left hrest, List.map_id]
      · rw [if_neg hentry, if_neg hentry, ih hdistinct.2]
        obtain ⟨other, hother, hsame⟩ := h
        rcases List.mem_cons.mp hother with rfl | hother
        · exact absurd hsame hentry
        · exact ⟨other, hother, hsame⟩

theorem importTable_files (named : List (Path × Alias)) :
    (importTable named).map (·.file) = firsts Path.Same (named.map (·.1)) := by
  rw [importTable, List.map_map]
  exact List.map_id _

theorem exists_mem_importTable {named : List (Path × Alias)} {file : Path} :
    (∃ entry ∈ importTable named, entry.file.Same file) ↔ ∃ pair ∈ named, pair.1.Same file := by
  constructor
  · rintro ⟨entry, hentry, hsame⟩
    have hfile : entry.file ∈ firsts Path.Same (named.map (·.1)) :=
      importTable_files named ▸ List.mem_map_of_mem hentry
    obtain ⟨pair, hpair, heq⟩ := List.mem_map.mp (mem_of_mem_firsts hfile)
    exact ⟨pair, hpair, by rwa [heq]⟩
  · rintro ⟨pair, hpair, hsame⟩
    obtain ⟨first, hfirst, hpairfirst⟩ :=
      exists_mem_firsts same_equivalence (List.mem_map_of_mem (f := (·.1)) hpair)
    rw [← importTable_files] at hfirst
    obtain ⟨entry, hentry, rfl⟩ := List.mem_map.mp hfirst
    exact ⟨entry, hentry, hpairfirst.symm.trans hsame⟩

theorem pairwise_importTable (named : List (Path × Alias)) :
    (importTable named).Pairwise fun earlier later => ¬ later.file.Same earlier.file := by
  have hfiles := pairwise_firsts Path.Same (named.map (·.1))
  rw [← importTable_files, List.pairwise_map] at hfiles
  exact hfiles

/-- Adding a type to the registry adds it to the end of what is grouped. -/
theorem importTable_concat (named : List (Path × Alias)) (file : Path) (item : Alias) :
    importTable (named ++ [(file, item)]) = Registry.addTo file item (importTable named) := by
  by_cases hknown : ∃ pair ∈ named, pair.1.Same file
  · rw [addTo_of_known (pairwise_importTable named) (exists_mem_importTable.mpr hknown)]
    have hfile : ∃ other ∈ named.map (·.1), file.Same other := by
      obtain ⟨pair, hpair, hsame⟩ := hknown
      exact ⟨pair.1, List.mem_map_of_mem hpair, hsame.symm⟩
    simp only [importTable, List.map_append, List.map_cons, List.map_nil]
    rw [firsts_concat, if_pos hfile, List.map_map]
    refine List.map_congr_left fun other _ => ?_
    rw [aliasesOf_concat, Function.comp_apply]
    by_cases hother : file.Same other
    · rw [if_pos hother, if_pos hother.symm]
    · rw [if_neg hother, if_neg fun hsame => hother hsame.symm]
  · rw [addTo_of_new fun entry hentry hsame =>
      hknown (exists_mem_importTable.mp ⟨entry, hentry, hsame⟩)]
    have hfile : ¬ ∃ other ∈ named.map (·.1), file.Same other := by
      rintro ⟨other, hother, hsame⟩
      obtain ⟨pair, hpair, rfl⟩ := List.mem_map.mp hother
      exact hknown ⟨pair, hpair, hsame.symm⟩
    simp only [importTable, List.map_append, List.map_cons, List.map_nil]
    rw [firsts_concat, if_neg hfile, List.map_append]
    congr 1
    · refine List.map_congr_left fun other hother => ?_
      rw [aliasesOf_concat, if_neg fun hsame => hfile ⟨other, mem_of_mem_firsts hother, hsame⟩]
    · rw [List.map_singleton, aliasesOf_concat, if_pos (Path.Same.refl file),
        aliasesOf_eq_nil.mpr hknown, List.nil_append]

/-! ## Reading the table -/

theorem aliases?_importTable (named : List (Path × Alias)) (file : Path) :
    (Registry.mk (importTable named)).aliases? file =
      if aliasesOf named file = [] then none else some (aliasesOf named file) := by
  induction named using List.reverseRecOn with
  | nil => rfl
  | append_singleton named pair ih =>
      have hadd : Registry.mk (importTable (named ++ [pair])) =
          (Registry.mk (importTable named)).add pair.1 pair.2 := by
        rw [importTable_concat]
        rfl
      rw [hadd, Registry.aliases?_add, aliasesOf_concat, ih]
      by_cases hsame : pair.1.Same file
      · by_cases hnil : aliasesOf named file = [] <;> simp [hsame, hnil]
      · simp [hsame]

theorem getD_aliases?_importTable (named : List (Path × Alias)) (file : Path) :
    ((Registry.mk (importTable named)).aliases? file).getD [] = aliasesOf named file := by
  rw [aliases?_importTable]
  split
  · rename_i hnil
    rw [hnil, Option.getD_none]
  · rw [Option.getD_some]

theorem exportName?_eq_find? (registry : Registry) (file : Path) (name : String) :
    registry.exportName? file name =
      (((registry.aliases? file).getD []).find? fun item => item.localName = name).map
        (·.exportName) := by
  unfold Registry.exportName?
  cases registry.aliases? file with
  | none => rfl
  | some aliases =>
      rw [Option.getD_some, Option.map_eq_bind]
      rfl

/-- The spelling of the file does not matter. -/
theorem aliases?_congr (registry : Registry) {file other : Path} (h : other.Same file) :
    registry.aliases? other = registry.aliases? file := by
  have hsame (entry : DeclaringFile) :
      decide (entry.file.Same other) = decide (entry.file.Same file) :=
    decide_eq_decide.mpr ⟨fun hother => hother.trans h, fun hfile => hfile.trans h.symm⟩
  unfold Registry.aliases?
  simp only [hsame]

/-- An export name is that of the first type of the name in the file. -/
theorem exportName?_importTable (named : List (Path × Alias)) (file : Path) (name : String) :
    (Registry.mk (importTable named)).exportName? file name =
      (named.find? fun pair => pair.1.Same file ∧ pair.2.localName = name).map
        (·.2.exportName) := by
  rw [exportName?_eq_find?, getD_aliases?_importTable, aliasesOf, List.find?_map,
    List.find?_filter, Option.map_map]
  simp [Function.comp_def]

theorem exportName?_importTable_eq_none {named : List (Path × Alias)} {file : Path}
    {name : String} :
    (Registry.mk (importTable named)).exportName? file name = none ↔
      ∀ pair ∈ named, ¬ (pair.1.Same file ∧ pair.2.localName = name) := by
  rw [exportName?_importTable, Option.map_eq_none_iff, List.find?_eq_none]
  simp only [decide_eq_true_eq]

theorem mem_pairs_importTable {named : List (Path × Alias)} {file : Path} {item : Alias}
    (h : (file, item) ∈ (Registry.mk (importTable named)).pairs) :
    ∃ other, (other, item) ∈ named ∧ other.Same file := by
  simp only [Registry.pairs, importTable, List.mem_flatMap, List.mem_map] at h
  obtain ⟨_, ⟨first, _, rfl⟩, other, hother, heq⟩ := h
  cases heq
  obtain ⟨⟨spelled, _⟩, hpair, rfl⟩ := List.mem_map.mp hother
  obtain ⟨hmem, hsame⟩ := List.mem_filter.mp hpair
  exact ⟨spelled, hmem, by simpa using hsame⟩

theorem exists_mem_pairs_importTable {named : List (Path × Alias)} {file : Path} {item : Alias}
    (h : (file, item) ∈ named) :
    ∃ other, (other, item) ∈ (Registry.mk (importTable named)).pairs ∧ other.Same file := by
  obtain ⟨other, hother, hsame⟩ :=
    exists_mem_firsts same_equivalence (List.mem_map_of_mem (f := (·.1)) h)
  refine ⟨other, ?_, hsame.symm⟩
  refine List.mem_flatMap.mpr ⟨⟨other, aliasesOf named other⟩, List.mem_map_of_mem hother, ?_⟩
  refine List.mem_map.mpr ⟨item, List.mem_map.mpr ⟨(file, item), ?_, rfl⟩, rfl⟩
  exact List.mem_filter.mpr ⟨h, by simpa using hsame⟩

/-! ## A run of registrations -/

/-- The ledger holds exactly these types, which are different, under their export names. -/
structure Tabulates (ledger : Ledger) (types : List (Path × String)) : Prop where
  entries_eq : ledger.registry.entries = importTable (numberTypes types)
  count_eq : ∀ name, ledger.counts.count name = countNamed types name

theorem tabulates_empty : Tabulates .empty [] where
  entries_eq := rfl
  count_eq _ := rfl

theorem Tabulates.registry_eq {ledger : Ledger} {types : List (Path × String)}
    (h : Tabulates ledger types) : ledger.registry = ⟨importTable (numberTypes types)⟩ :=
  congrArg Registry.mk h.entries_eq

/-- What a registration answers depends on whether the type was registered. -/
theorem Tabulates.exportName?_eq_none {ledger : Ledger} {types : List (Path × String)}
    (h : Tabulates ledger types) (type : Path × String) :
    ledger.registry.exportName? type.1 type.2 = none ↔ ¬ ∃ other ∈ types, SameType type other := by
  rw [h.registry_eq, exportName?_importTable_eq_none]
  constructor
  · rintro hnone ⟨other, hother, hsame⟩
    rw [← map_numberTypes types] at hother
    obtain ⟨pair, hpair, rfl⟩ := List.mem_map.mp hother
    exact hnone pair hpair ⟨hsame.1.symm, hsame.2.symm⟩
  · intro hnew pair hpair hsame
    refine hnew ⟨(pair.1, pair.2.localName), ?_, hsame.1.symm, hsame.2.symm⟩
    rw [← map_numberTypes types]
    exact List.mem_map_of_mem hpair

/-- One registration adds the type, unless it is there. -/
theorem Tabulates.register {ledger : Ledger} {types : List (Path × String)}
    (h : Tabulates ledger types) (type : Path × String) :
    Tabulates (ledger.register type.1 type.2).2
      (if ∃ other ∈ types, SameType type other then types else types ++ [type]) := by
  by_cases hknown : ∃ other ∈ types, SameType type other
  · rw [if_pos hknown]
    obtain ⟨exportName, hname⟩ := Option.ne_none_iff_exists'.mp
      fun hnone => (h.exportName?_eq_none type).mp hnone hknown
    simpa only [Ledger.register, hname] using h
  · rw [if_neg hknown]
    have hnone := (h.exportName?_eq_none type).mpr hknown
    simp only [Ledger.register, hnone]
    constructor
    · rw [numberTypes_concat, importTable_concat, ← h.entries_eq, ← h.count_eq]
      rfl
    · intro name
      change (ledger.counts.bump type.2).count name = _
      rw [count_bump, h.count_eq, countNamed_concat]

/-- A run of registrations is described by the first sights of its types. -/
theorem tabulates_registerAll (types : List (Path × String)) :
    Tabulates (Ledger.empty.registerAll types) (firsts SameType types) := by
  induction types using List.reverseRecOn with
  | nil => exact tabulates_empty
  | append_singleton types type ih =>
      have h := ih.register type
      simp only [exists_same_firsts_iff sameType_equivalence] at h
      rw [Ledger.registerAll, List.foldl_concat, firsts_concat]
      exact h

end WebComponents.Exports
