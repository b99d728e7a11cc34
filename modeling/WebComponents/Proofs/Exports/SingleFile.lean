import Mathlib.Data.List.Basic
import WebComponents.Proofs.Exports.Aliases
import WebComponents.Proofs.Exports.Occurrences

/-!
# Signatures with types of one file

If all types of a signature are declared in one file, only the aliases of that file are applied to
the signature, also those for names that it does not refer to.  Their local names differ, so each
alias finds only its own tokens as soon as its local name stands in no longer token and in no export
name of another alias (`TokensApart`).  The tokens are then renamed as the registry says, all at
once (`renameType_of_tokensApart`):

```text
aliases        Foo as Foo1, Bar as Bar1, Baz as Baz
signature      (a: Foo, b: Foo[], $c: Bar) => Promise<Foo>
after Foo      (a: Foo1, b: Foo1[], $c: Bar) => Promise<Foo1>
after Bar      (a: Foo1, b: Foo1[], $c: Bar1) => Promise<Foo1>
```

An export name contains its own local name.  That does no harm, since each alias has one turn.
-/

namespace WebComponents.Exports

open Metadata NameCounts Text

variable {registry : Registry} {source file : Path} {references : References}
  {aliases : List Alias} {signature : String}

/-- The local names are identifiers that stand in no longer token of the signature and in no export
name of another alias. -/
structure TokensApart (aliases : List Alias) (signature : String) : Prop where
  identifier : ∀ item ∈ aliases, IsIdentifier item.localName
  whole : ∀ item ∈ aliases, ∀ word ∈ tokensOf signature,
    item.localName.toList <:+: word.toList → item.localName = word
  foreign : ∀ item ∈ aliases, ∀ other ∈ aliases, other ≠ item →
    ¬ item.localName.toList <:+: other.exportName.toList

/-! ## The aliases of one file -/

theorem isFor_nil {word : String} {pair : Path × Alias} :
    IsFor [] word pair ↔ pair.2.localName = word ∧ pair.2.exportName ≠ word := by
  simp [IsFor]

/-- Among the aliases of one file there is one new name for a word at most. -/
theorem newName_of_file (hnodup : (aliases.map (·.localName)).Nodup) (file : Path) (word : String) :
    newName [] (aliases.map fun item => (file, item)) word =
      ((aliases.find? fun item => item.localName = word).map (·.exportName)).getD word := by
  unfold newName
  cases hfor : (aliases.map fun item => (file, item)).find? fun pair => IsFor [] word pair with
  | some pair =>
      obtain ⟨item, hitem, rfl⟩ := List.mem_map.mp (List.mem_of_find?_eq_some hfor)
      have hpair : IsFor [] word (file, item) := by simpa using List.find?_some hfor
      rw [← (isFor_nil.mp hpair).1, find?_eq_some_of_mem hnodup hitem]
      rfl
  | none =>
      rw [List.find?_eq_none] at hfor
      cases hfound : aliases.find? fun item => item.localName = word with
      | none => rfl
      | some item =>
          -- an alias that is for no word keeps the name
          have hword : item.localName = word := by simpa using List.find?_some hfound
          have hnot : ¬ IsFor [] word (file, item) := by
            simpa using hfor _ (List.mem_map_of_mem (List.mem_of_find?_eq_some hfound))
          rw [isFor_nil, not_and, not_not] at hnot
          exact (hnot hword).symm

theorem TokensApart.keepsApart (h : TokensApart aliases signature)
    (hnodup : (aliases.map (·.localName)).Nodup) (file : Path) :
    KeepsApart [] (aliases.map fun item => (file, item)) signature := by
  intro k hk _ hchanges
  rw [List.length_map] at hk
  simp only [List.getElem_map] at hchanges ⊢
  have hitem : aliases[k] ∈ aliases := List.getElem_mem hk
  refine ⟨fun _ word hword hfound => ?_, fun hnot => absurd (h.identifier _ hitem) hnot⟩
  unfold newName at hfound ⊢
  cases hearlier : ((aliases.map fun item => (file, item)).take k).find?
      fun pair => IsFor [] word pair with
  | none =>
      rw [hearlier] at hfound
      have hlocal := h.whole _ hitem word hword hfound
      exact ⟨rfl, isFor_nil.mpr ⟨hlocal, fun hsame => hchanges (hlocal.trans hsame.symm)⟩⟩
  | some pair =>
      -- the word has the export name of an earlier alias, in which this one is not found
      rw [hearlier] at hfound
      have hmem := List.mem_of_find?_eq_some hearlier
      rw [← List.map_take] at hmem
      obtain ⟨other, hother, rfl⟩ := List.mem_map.mp hmem
      obtain ⟨j, hj, rfl⟩ := List.mem_take_iff_getElem.mp hother
      have hne : aliases[j] ≠ aliases[k] := fun heq =>
        absurd ((hnodup.of_map _).getElem_inj_iff.mp heq) (by omega)
      exact absurd hfound (h.foreign _ hitem _ (List.getElem_mem _) hne)

/-! ## The signature -/

theorem appliedAliases_of_same (registry : Registry)
    (hone : ∀ type ∈ declaredTypes source references, type.1.Same file)
    (hsome : declaredTypes source references ≠ []) :
    ∃ spelled, appliedAliases registry source references =
      ((registry.aliases? file).getD []).map fun item => (spelled, item) := by
  obtain ⟨first, rest, htypes⟩ := List.exists_cons_of_ne_nil hsome
  rw [htypes, List.forall_mem_cons] at hone
  have hfiles : declaringFiles source references = [first.1] := by
    rw [declaringFiles_eq_firsts, htypes, List.map_cons]
    refine firsts_of_forall_same fun other hother => ?_
    obtain ⟨type, htype, rfl⟩ := List.mem_map.mp hother
    exact (hone.2 type htype).trans hone.1.symm
  refine ⟨first.1, ?_⟩
  rw [appliedAliases, hfiles, List.flatMap_singleton, aliases?_congr registry hone.1]

/-- **A signature with types of one file.**  If the tokens are kept apart, each token gets the
export name that the registry has for it in that file, and all else stays.  A signature without
declared types has no file to look in and stays as it is. -/
theorem renameType_of_tokensApart (hreached : registry.Reached)
    (hfile : registry.aliases? file = some aliases)
    (hone : ∀ type ∈ declaredTypes source references, type.1.Same file)
    (hapart : TokensApart aliases signature) :
    renameType renameOccurrences registry source references signature =
      if declaredTypes source references = [] then signature
      else renameTokens (fun word => (registry.exportName? file word).getD word) signature := by
  have haliases : (registry.aliases? file).getD [] = aliases := by rw [hfile, Option.getD_some]
  have hlists : ListsTypes aliases := haliases ▸ hreached.listsTypes file
  rw [renameType_eq_foldl]
  split
  · rename_i hnone
    rw [appliedAliases, declaringFiles_eq_firsts, hnone]
    rfl
  · rename_i hsome
    obtain ⟨spelled, happlied⟩ := appliedAliases_of_same registry hone hsome
    rw [happlied, haliases, foldl_renameOccurrences _ (hapart.keepsApart hlists.nodup spelled)]
    · refine renameTokens_congr fun word _ => ?_
      rw [newName_of_file hlists.nodup, exportName?_eq_find?, haliases]
    · intro pair hpair
      obtain ⟨item, hitem, rfl⟩ := List.mem_map.mp hpair
      exact hlists.numbered item hitem

/-- Two types that are second of their names, and one alias that the signature does not refer to. -/
theorem renameType_of_tokensApart_promise :
    let registry := (Ledger.empty.registerAll
      [(⟨"/lib.ts"⟩, "Foo"), (⟨"/lib.ts"⟩, "Bar"), (⟨"/src/a.tsx"⟩, "Foo"), (⟨"/src/a.tsx"⟩, "Bar"),
        (⟨"/src/a.tsx"⟩, "Baz")]).registry
    let references : References := .ofPairs [("Foo", .here), ("Bar", .imported "./a.tsx"),
      ("Promise", .everywhere)]
    renameType renameOccurrences registry ⟨"/src/a.tsx"⟩ references
        "(a: Foo, b: Foo[], $c: Bar) => Promise<Foo>" =
      "(a: Foo1, b: Foo1[], $c: Bar1) => Promise<Foo1>" := by
  intro registry references
  have haliases : registry.aliases? ⟨"/src/a.tsx"⟩ =
      some [⟨"Foo", "Foo1"⟩, ⟨"Bar", "Bar1"⟩, ⟨"Baz", "Baz"⟩] := by decide
  have hone : ∀ type ∈ declaredTypes ⟨"/src/a.tsx"⟩ references,
      type.1.Same ⟨"/src/a.tsx"⟩ := by decide
  rw [renameType_of_tokensApart (reached_registerAll .empty _) haliases hone
    ⟨by decide, by decide, by decide⟩]
  decide

end WebComponents.Exports
