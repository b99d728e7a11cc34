import Mathlib.Data.List.Nodup
import WebComponents.Proofs.Exports.ImportTable
import WebComponents.Proofs.Exports.Lengthening

/-!
# The aliases of a file

What a run of registrations leaves under one file: aliases with different local names, each of which
is exported as a numbered form of itself (`nodup_localNames`, `exists_numbered`).  More
registrations only add aliases at the end, so an export name that was given stays
(`exportName?_of_prefix`).  That the aliases are of this kind does not depend on the table of
counts: registrations may draw on any (`Registry.Reached.listsTypes`).

An identifier that is renamed by all of them in turn gets its export name, and keeps it unless the
export name is taken up by an alias further on (`foldl_renameIdentifier_eq_iff`).
-/

namespace WebComponents.Exports

open NameCounts

/-! ## What is listed under a file -/

theorem exists_numbered {types : List (Path × String)} {file : Path} {item : Alias}
    (h : item ∈ aliasesOf (numberTypes types) file) :
    ∃ k, item.exportName = numbered item.localName k := by
  obtain ⟨⟨spelled, _⟩, hpair, rfl⟩ := List.mem_map.mp h
  obtain ⟨i, _, hname⟩ := mem_numberTypes.mp (List.mem_of_mem_filter hpair)
  exact ⟨_, hname⟩

theorem nodup_localNames {types : List (Path × String)}
    (hdistinct : types.Pairwise fun earlier later => ¬ SameType later earlier) (file : Path) :
    ((aliasesOf (numberTypes types) file).map (·.localName)).Nodup := by
  rw [← map_numberTypes types, List.pairwise_map] at hdistinct
  rw [aliasesOf, List.map_map, List.Nodup, List.pairwise_map]
  refine (hdistinct.filter _).imp_of_mem ?_
  intro earlier later hearlier hlater hdifferent hname
  have hfile : earlier.1.Same file := by simpa using List.of_mem_filter hearlier
  have hother : later.1.Same file := by simpa using List.of_mem_filter hlater
  exact hdifferent ⟨hother.trans hfile.symm, hname.symm⟩

theorem mem_aliasesOf_of_exportName? {named : List (Path × Alias)} {file : Path}
    {name exportName : String}
    (h : (Registry.mk (importTable named)).exportName? file name = some exportName) :
    Alias.mk name exportName ∈ aliasesOf named file := by
  rw [exportName?_eq_find?, getD_aliases?_importTable, Option.map_eq_some_iff] at h
  obtain ⟨⟨localName, _⟩, hfind, rfl⟩ := h
  have hname : localName = name := by simpa using List.find?_some hfind
  subst hname
  exact List.mem_of_find?_eq_some hfind

theorem exportName?_of_prefix {named more : List (Path × Alias)} (hstarts : named <+: more)
    {file : Path} {name exportName : String}
    (h : (Registry.mk (importTable named)).exportName? file name = some exportName) :
    (Registry.mk (importTable more)).exportName? file name = some exportName := by
  rw [exportName?_importTable, Option.map_eq_some_iff] at h ⊢
  obtain ⟨pair, hfind, hname⟩ := h
  exact ⟨pair, hstarts.find?_eq_some hfind, hname⟩

/-- Every type of a run is exported. -/
theorem exists_exportName? {types : List (Path × String)} {type : Path × String}
    (h : type ∈ types) :
    ∃ exportName, (Registry.mk (importTable (numberTypes (firsts SameType types)))).exportName?
      type.1 type.2 = some exportName := by
  have htabulates := tabulates_registerAll types
  rw [← htabulates.registry_eq]
  refine Option.ne_none_iff_exists'.mp fun hnone => ?_
  exact (htabulates.exportName?_eq_none type).mp hnone (exists_mem_firsts sameType_equivalence h)

theorem find?_eq_some_of_mem {aliases : List Alias} {item : Alias}
    (hnodup : (aliases.map (·.localName)).Nodup) (h : item ∈ aliases) :
    (aliases.find? fun other => other.localName = item.localName) = some item := by
  cases hfound : aliases.find? fun other => other.localName = item.localName with
  | none =>
      rw [List.find?_eq_none] at hfound
      exact absurd (by simp) (hfound item h)
  | some found =>
      have hname : found.localName = item.localName := by simpa using List.find?_some hfound
      rw [List.inj_on_of_nodup_map hnodup (List.mem_of_find?_eq_some hfound) h hname]

/-! ## Registries without their counts -/

/-- A registry to which registrations lead, each with some table of counts. -/
inductive Registry.Reached : Registry → Prop
  | empty : Reached .empty
  | register {registry : Registry} (h : Reached registry) (counts : NameCounts) (file : Path)
      (name : String) : Reached (Ledger.register ⟨registry, counts⟩ file name).2.registry

theorem reached_registerAll {ledger : Ledger} (h : ledger.registry.Reached)
    (types : List (Path × String)) : (ledger.registerAll types).registry.Reached := by
  induction types generalizing ledger with
  | nil => exact h
  | cons type types ih => exact ih (h.register ledger.counts type.1 type.2)

/-- Different local names, each exported as a numbered form of itself. -/
structure ListsTypes (aliases : List Alias) : Prop where
  nodup : (aliases.map (·.localName)).Nodup
  numbered : ∀ item ∈ aliases, ∃ k, item.exportName = numbered item.localName k

theorem ListsTypes.concat {aliases : List Alias} (h : ListsTypes aliases) {name : String}
    (hnew : ∀ item ∈ aliases, item.localName ≠ name) (k : Nat) :
    ListsTypes (aliases ++ [⟨name, NameCounts.numbered name k⟩]) where
  nodup := by
    rw [List.map_append, List.nodup_append]
    refine ⟨h.nodup, List.nodup_singleton _, ?_⟩
    intro localName hlocal other hother
    obtain ⟨item, hitem, rfl⟩ := List.mem_map.mp hlocal
    rw [List.mem_singleton.mp hother]
    exact hnew item hitem
  numbered := by
    intro item hitem
    rcases List.mem_append.mp hitem with hitem | hitem
    · exact h.numbered item hitem
    · rw [List.mem_singleton.mp hitem]
      exact ⟨k, rfl⟩

/-- Registrations keep the aliases of each file in order. -/
theorem Registry.Reached.listsTypes {registry : Registry} (h : registry.Reached) (file : Path) :
    ListsTypes ((registry.aliases? file).getD []) := by
  induction h generalizing file with
  | empty => exact ⟨List.nodup_nil, List.forall_mem_nil _⟩
  | @register registry _ counts other name ih =>
      cases hname : registry.exportName? other name with
      | some exportName =>
          simp only [Ledger.register, hname]
          exact ih file
      | none =>
          simp only [Ledger.register, hname, aliases?_add]
          split
          · -- the new alias comes last, and no alias of the file has its local name
            rename_i hsame
            rw [exportName?_eq_find?, aliases?_congr registry hsame, Option.map_eq_none_iff,
              List.find?_eq_none] at hname
            exact (ih file).concat (fun item hitem => by simpa using hname item hitem) _
          · exact ih file

/-! ## Renaming an identifier -/

/-- A local name is left alone up to its alias and goes on as the export name. -/
theorem foldl_renameIdentifier_of_mem {before after : List Alias} {item : Alias}
    (hnodup : ((before ++ item :: after).map (·.localName)).Nodup) (hne : item.exportName ≠ "") :
    (before ++ item :: after).foldl renameIdentifier item.localName =
      after.foldl renameIdentifier item.exportName := by
  have hbefore : ∀ other ∈ before, renameIdentifier item.localName other = item.localName := by
    intro other hother
    rw [List.map_append, List.nodup_append] at hnodup
    exact if_neg fun h => hnodup.2.2 _ (List.mem_map_of_mem hother) _ List.mem_cons_self h.1
  have hitem : renameIdentifier item.localName item = item.exportName := if_pos ⟨rfl, hne⟩
  rw [List.foldl_append, foldl_eq_self hbefore, List.foldl_cons, hitem]

/-- A text changes exactly if an alias exports it under another name. -/
theorem foldl_renameIdentifier_eq_self_iff {items : List Alias} {text : String}
    (hnumbered : ∀ item ∈ items, ∃ k, item.exportName = numbered item.localName k)
    (htext : text ≠ "") :
    items.foldl renameIdentifier text = text ↔
      ¬ ∃ other ∈ items, other.localName = text ∧ other.exportName ≠ text := by
  rw [lengthens_renameIdentifier.foldl_eq_self_iff hnumbered]
  constructor
  · rintro hkept ⟨other, hother, rfl, hne⟩
    obtain ⟨k, hk⟩ := hnumbered other hother
    have hrenamed : renameIdentifier other.localName other = other.exportName :=
      if_pos ⟨rfl, hk ▸ numbered_ne_empty htext k⟩
    exact hne (hrenamed.symm.trans (hkept other hother))
  · intro hnone item hitem
    unfold renameIdentifier
    split
    · rename_i hname
      by_contra hne
      exact hnone ⟨item, hitem, hname.1, hne⟩
    · rfl

/-- The export name of an alias is the local name of a later one, which exports it under another
name. -/
def TakenUp (items : List Alias) (item : Alias) : Prop :=
  ∃ before after other, items = before ++ item :: after ∧ other ∈ after ∧
    other.localName = item.exportName ∧ other.exportName ≠ item.exportName

/-- **What becomes of an identifier.**  It gets its export name and keeps it, unless a later alias
takes the export name up. -/
theorem foldl_renameIdentifier_eq_iff {items : List Alias} (item : Alias)
    (hnodup : (items.map (·.localName)).Nodup)
    (hnumbered : ∀ item ∈ items, ∃ k, item.exportName = numbered item.localName k)
    (hmem : item ∈ items) (hname : item.localName ≠ "") :
    items.foldl renameIdentifier item.localName = item.exportName ↔ ¬ TakenUp items item := by
  obtain ⟨k, hk⟩ := hnumbered item hmem
  have hne : item.exportName ≠ "" := hk ▸ numbered_ne_empty hname k
  have hsplit {before after : List Alias} (hitems : items = before ++ item :: after) :
      items.foldl renameIdentifier item.localName = item.exportName ↔
        ¬ ∃ other ∈ after, other.localName = item.exportName ∧
          other.exportName ≠ item.exportName := by
    subst hitems
    rw [foldl_renameIdentifier_of_mem hnodup hne]
    exact foldl_renameIdentifier_eq_self_iff
      (fun other hother => hnumbered other (by simp [hother])) hne
  constructor
  · rintro hfold ⟨before, after, other, hitems, hother, htaken⟩
    exact (hsplit hitems).mp hfold ⟨other, hother, htaken⟩
  · intro hfree
    obtain ⟨before, after, hitems⟩ := List.append_of_mem hmem
    refine (hsplit hitems).mpr ?_
    rintro ⟨other, hother, htaken⟩
    exact hfree ⟨before, after, other, hitems, hother, htaken⟩

end WebComponents.Exports
