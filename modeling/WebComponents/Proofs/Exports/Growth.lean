import Mathlib.Data.List.Basic
import WebComponents.Exports.Registry

/-!
# Registries only grow

A registration may add one alias: at the end of the aliases of its file, or under a new file that
comes last.  So a registry is the start of every later one (`Registry.IsStartOf`):

```text
/a.tsx   Foo                      /a.tsx   Foo Bar
/b.tsx   Foo Baz     is start of  /b.tsx   Foo Baz
                                  /c.tsx   Foo
```

One registration keeps the start (`isStartOf_register`), hence a run of them does
(`isStartOf_registerAll`), and a type that has an export name keeps it
(`Registry.IsStartOf.exportName?_eq`).
-/

namespace WebComponents.Exports

namespace Registry

/-- Each file of the earlier registry has its place, its spelling and its aliases in the later one,
where more aliases may follow. -/
def IsStartOf (earlier later : Registry) : Prop :=
  ∀ (k : Nat) (entry : DeclaringFile), earlier.entries[k]? = some entry →
    ∃ more, later.entries[k]? = some ⟨entry.file, entry.aliases ++ more⟩

theorem IsStartOf.refl (registry : Registry) : registry.IsStartOf registry := by
  intro k entry hentry
  exact ⟨[], by rw [List.append_nil, hentry]⟩

theorem IsStartOf.trans {first second third : Registry} (h : first.IsStartOf second)
    (h' : second.IsStartOf third) : first.IsStartOf third := by
  intro k entry hentry
  obtain ⟨more, hmore⟩ := h k entry hentry
  obtain ⟨still, hstill⟩ := h' k _ hmore
  exact ⟨more ++ still, by rw [hstill, List.append_assoc]⟩

theorem isStartOf_add (registry : Registry) (file : Path) (item : Alias) :
    registry.IsStartOf (registry.add file item) := by
  obtain ⟨entries⟩ := registry
  intro k entry hentry
  change entries[k]? = some entry at hentry
  change ∃ more, (addTo file item entries)[k]? = some ⟨entry.file, entry.aliases ++ more⟩
  induction entries generalizing k with
  | nil => simp at hentry
  | cons first entries ih =>
      cases k with
      | zero =>
          obtain rfl : first = entry := by simpa using hentry
          by_cases hfile : first.file.Same file
          · exact ⟨[item], by simp [addTo, hfile]⟩
          · exact ⟨[], by simp [addTo, hfile]⟩
      | succ k =>
          rw [List.getElem?_cons_succ] at hentry
          by_cases hfile : first.file.Same file
          · exact ⟨[], by simp [addTo, hfile, hentry]⟩
          · obtain ⟨more, hmore⟩ := ih k hentry
            exact ⟨more, by simpa [addTo, hfile] using hmore⟩

/-- The first entry of a file is still the first one later. -/
theorem IsStartOf.aliases?_eq {earlier later : Registry} (h : earlier.IsStartOf later) {file : Path}
    {aliases : List Alias} (haliases : earlier.aliases? file = some aliases) :
    ∃ more, later.aliases? file = some (aliases ++ more) := by
  unfold aliases? at haliases
  obtain ⟨entry, hfind, rfl⟩ := Option.map_eq_some_iff.mp haliases
  obtain ⟨hsame, k, hk, hentry, hbefore⟩ := List.find?_eq_some_iff_getElem.mp hfind
  obtain ⟨more, hmore⟩ := h k entry (List.getElem?_eq_some_iff.mpr ⟨hk, hentry⟩)
  obtain ⟨hlt, hlater⟩ := List.getElem?_eq_some_iff.mp hmore
  have hfind' : later.entries.find? (fun entry => entry.file.Same file) =
      some ⟨entry.file, entry.aliases ++ more⟩ := by
    refine List.find?_eq_some_iff_getElem.mpr ⟨hsame, k, hlt, hlater, ?_⟩
    intro j hj
    -- an entry before it has the file that it had earlier
    obtain ⟨still, hstill⟩ := h j _ (List.getElem?_eq_getElem (Nat.lt_trans hj hk))
    obtain ⟨_, hlaterj⟩ := List.getElem?_eq_some_iff.mp hstill
    rw [hlaterj]
    exact hbefore j hj
  exact ⟨more, by rw [aliases?, hfind', Option.map_some]⟩

/-- An export name that was given stays. -/
theorem IsStartOf.exportName?_eq {earlier later : Registry} (h : earlier.IsStartOf later)
    {file : Path} {name exportName : String}
    (hname : earlier.exportName? file name = some exportName) :
    later.exportName? file name = some exportName := by
  unfold exportName? at hname ⊢
  obtain ⟨aliases, haliases, hfound⟩ := Option.bind_eq_some_iff.mp hname
  obtain ⟨more, hmore⟩ := h.aliases?_eq haliases
  obtain ⟨item, hitem, hpure⟩ := Option.bind_eq_some_iff.mp hfound
  rw [hmore]
  simp only [Option.bind_eq_bind, Option.bind_some, List.find?_append, hitem, Option.some_or]
  exact hpure

end Registry

/-! ## Registrations -/

theorem isStartOf_register (ledger : Ledger) (file : Path) (name : String) :
    ledger.registry.IsStartOf (ledger.register file name).2.registry := by
  unfold Ledger.register
  split
  · exact Registry.IsStartOf.refl _
  · exact Registry.isStartOf_add _ _ _

theorem isStartOf_registerAll (ledger : Ledger) (types : List (Path × String)) :
    ledger.registry.IsStartOf (ledger.registerAll types).registry := by
  induction types generalizing ledger with
  | nil => exact Registry.IsStartOf.refl _
  | cons type types ih =>
      exact (isStartOf_register ledger type.1 type.2).trans (ih (ledger.register type.1 type.2).2)

end WebComponents.Exports
