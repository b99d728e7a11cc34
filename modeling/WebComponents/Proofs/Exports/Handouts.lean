import Mathlib.Data.List.Nodup
import WebComponents.Proofs.Exports.Growth
import WebComponents.Proofs.Exports.ImportTable

/-!
# Strings that are handed out

A ledger is called in two ways: a type is registered, or a string is asked for without a type.  Both
draw on one table of counts, and a registration only draws if the type is new.  What was drawn so
far, a `Handout` for each string, describes both tables (`Tracks`):

```text
call                   hands out    registry                    counts
register /a.ts Foo     Foo          /a.ts Foo                   Foo 1
next Foo               Foo1         /a.ts Foo                   Foo 2
register /b.ts Foo     Foo2         /a.ts Foo, /b.ts Foo2       Foo 3
register /a.ts Foo     nothing      /a.ts Foo, /b.ts Foo2       Foo 3
```

Each call keeps this description (`Tracks.answer`), hence each run does (`tracks_after`), and all
that a run promises is read off it (`keepsBooks_after`).
-/

namespace WebComponents.Exports

open NameCounts

/-! ## Calls and what they hand out -/

/-- A call on a ledger. -/
inductive Call where
  | register (file : Path) (name : String)
  | next (name : String)
  deriving DecidableEq, Repr

/-- A string that was handed out for a name, and the file if a type was registered with it. -/
structure Handout where
  name : String
  string : String
  file? : Option Path
  deriving DecidableEq, Repr

namespace Ledger

/-- What a call answers, and the ledger after it. -/
def answer (ledger : Ledger) : Call → String × Ledger
  | .register file name => ledger.register file name
  | .next name => ledger.next name

/-- The ledger after a run of calls. -/
def after (ledger : Ledger) (calls : List Call) : Ledger :=
  calls.foldl (fun ledger call => (ledger.answer call).2) ledger

/-- What a call hands out; a registration does so only if the type has no alias yet. -/
def handout? (ledger : Ledger) : Call → Option Handout
  | .register file name =>
    if ledger.registry.exportName? file name = none then
      some ⟨name, (ledger.register file name).1, some file⟩
    else none
  | .next name => some ⟨name, (ledger.next name).1, none⟩

/-- All that a run of calls hands out, in order. -/
def handouts (ledger : Ledger) : List Call → List Handout
  | [] => []
  | call :: calls => (ledger.handout? call).toList ++ (ledger.answer call).2.handouts calls

theorem after_concat (ledger : Ledger) (calls : List Call) (call : Call) :
    ledger.after (calls ++ [call]) = ((ledger.after calls).answer call).2 :=
  List.foldl_concat ..

theorem handouts_concat (ledger : Ledger) (calls : List Call) (call : Call) :
    ledger.handouts (calls ++ [call]) =
      ledger.handouts calls ++ ((ledger.after calls).handout? call).toList := by
  induction calls generalizing ledger with
  | nil => simp [handouts, after]
  | cons first calls ih => rw [List.cons_append, handouts, handouts, ih, List.append_assoc]; rfl

end Ledger

/-- The strings handed out for a name, in order. -/
def stringsFor (name : String) (handouts : List Handout) : List String :=
  (handouts.filter fun handout => handout.name = name).map (·.string)

/-- The types registered with what was handed out. -/
def registeredTypes (handouts : List Handout) : List (Path × Alias) :=
  handouts.filterMap fun handout =>
    handout.file?.map fun file => (file, ⟨handout.name, handout.string⟩)

/-! ## The two tables -/

/-- Two registered types of one name, in files with the same segments. -/
def SameAlias (s t : Path × Alias) : Prop :=
  SameType (s.1, s.2.localName) (t.1, t.2.localName)

/-- The registry holds the types that were registered, and the counts are those of the strings. -/
structure Tracks (ledger : Ledger) (handouts : List Handout) : Prop where
  entries_eq : ledger.registry.entries = importTable (registeredTypes handouts)
  types_apart : (registeredTypes handouts).Pairwise fun s t => ¬ SameAlias s t
  count_eq : ∀ name, ledger.counts.count name = (stringsFor name handouts).length
  strings_eq : ∀ name, stringsFor name handouts =
    (List.range (stringsFor name handouts).length).map (numbered name)

variable {ledger : Ledger} {handouts : List Handout}

theorem tracks_empty : Tracks .empty [] where
  entries_eq := rfl
  types_apart := List.Pairwise.nil
  count_eq _ := rfl
  strings_eq _ := rfl

theorem stringsFor_concat (name : String) (handouts : List Handout) (handout : Handout) :
    stringsFor name (handouts ++ [handout]) =
      if handout.name = name then stringsFor name handouts ++ [handout.string]
      else stringsFor name handouts := by
  by_cases h : handout.name = name <;> simp [stringsFor, h]

theorem Tracks.exportName?_eq_none (h : Tracks ledger handouts) (file : Path) (name : String) :
    ledger.registry.exportName? file name = none ↔
      ∀ type ∈ registeredTypes handouts, ¬ (type.1.Same file ∧ type.2.localName = name) := by
  have hregistry : ledger.registry = ⟨importTable (registeredTypes handouts)⟩ :=
    congrArg Registry.mk h.entries_eq
  rw [hregistry, exportName?_importTable_eq_none]

/-- A string handed out is the name with the number of strings before it. -/
theorem Tracks.counted (h : Tracks ledger handouts) (handout : Handout)
    (hstring : handout.string = numbered handout.name (ledger.counts.count handout.name)) :
    (∀ name, (ledger.counts.bump handout.name).count name =
      (stringsFor name (handouts ++ [handout])).length) ∧
    ∀ name, stringsFor name (handouts ++ [handout]) =
      (List.range (stringsFor name (handouts ++ [handout])).length).map (numbered name) := by
  constructor
  · intro name
    rw [count_bump, stringsFor_concat, h.count_eq]
    split
    · rw [List.length_append, List.length_singleton]
    · rfl
  · intro name
    rw [stringsFor_concat]
    split
    · rename_i hname
      rw [List.length_append, List.length_singleton, List.range_succ, List.map_append,
        ← h.strings_eq, hstring, hname, h.count_eq]
      rfl
    · exact h.strings_eq name

/-- **One call.** -/
theorem Tracks.answer (h : Tracks ledger handouts) (call : Call) :
    Tracks (ledger.answer call).2 (handouts ++ (ledger.handout? call).toList) := by
  cases call with
  | next name =>
      -- a name by itself is counted, and no type is registered for it
      obtain ⟨hcount, hstrings⟩ := h.counted ⟨name, (ledger.next name).1, none⟩ rfl
      have htypes : registeredTypes (handouts ++ [⟨name, (ledger.next name).1, none⟩]) =
          registeredTypes handouts := by
        simp [registeredTypes]
      exact ⟨htypes ▸ h.entries_eq, htypes ▸ h.types_apart, hcount, hstrings⟩
  | register file name =>
      by_cases hnew : ledger.registry.exportName? file name = none
      · have hanswer : ledger.register file name =
            (numbered name (ledger.counts.count name),
              ⟨ledger.registry.add file ⟨name, numbered name (ledger.counts.count name)⟩,
                ledger.counts.bump name⟩) := by
          simp only [Ledger.register, hnew]
          rfl
        obtain ⟨hcount, hstrings⟩ :=
          h.counted ⟨name, numbered name (ledger.counts.count name), some file⟩ rfl
        have htypes : registeredTypes
            (handouts ++ [⟨name, numbered name (ledger.counts.count name), some file⟩]) =
            registeredTypes handouts ++
              [(file, ⟨name, numbered name (ledger.counts.count name)⟩)] := by
          simp [registeredTypes]
        simp only [Ledger.answer, Ledger.handout?, hanswer, if_pos hnew, Option.toList_some]
        refine ⟨?_, ?_, hcount, hstrings⟩
        · rw [htypes, importTable_concat, ← h.entries_eq]
          rfl
        · rw [htypes, List.pairwise_append]
          refine ⟨h.types_apart, List.pairwise_singleton _ _, ?_⟩
          intro type htype other hother hsame
          rw [List.mem_singleton.mp hother] at hsame
          exact (h.exportName?_eq_none file name).mp hnew type htype hsame
      -- a type that is registered already gets its old name, and nothing is handed out
      · obtain ⟨exportName, hname⟩ := Option.ne_none_iff_exists'.mp hnew
        simpa [Ledger.answer, Ledger.handout?, Ledger.register, hname] using h

/-- **A run of calls.** -/
theorem tracks_after (calls : List Call) :
    Tracks (Ledger.empty.after calls) (Ledger.empty.handouts calls) := by
  induction calls using List.reverseRecOn with
  | nil => exact tracks_empty
  | append_singleton calls call ih =>
      rw [Ledger.after_concat, Ledger.handouts_concat]
      exact ih.answer call

/-! ## Types that are registered once -/

/-- If types are apart, so are those of the table that groups them by file. -/
theorem pairwise_pairs_importTable {named : List (Path × Alias)}
    (h : named.Pairwise fun s t => ¬ SameAlias s t) :
    (Registry.mk (importTable named)).pairs.Pairwise fun s t => ¬ SameAlias s t := by
  refine List.pairwise_flatMap.mpr ⟨fun entry hentry => ?_, ?_⟩
  · obtain ⟨file, _, rfl⟩ := List.mem_map.mp hentry
    refine List.pairwise_map.mpr (List.pairwise_map.mpr ?_)
    refine (h.filter _).imp_of_mem fun {s t} hs ht hapart hsame => hapart ⟨?_, hsame.2⟩
    have hfile : s.1.Same file := by simpa using List.of_mem_filter hs
    have hfile' : t.1.Same file := by simpa using List.of_mem_filter ht
    exact hfile.trans hfile'.symm
  · refine (pairwise_importTable named).imp fun {entry other} hapart => ?_
    intro s hs t ht hsame
    obtain ⟨_, _, rfl⟩ := List.mem_map.mp hs
    obtain ⟨_, _, rfl⟩ := List.mem_map.mp ht
    exact hapart hsame.1.symm

/-! ## Answers that stay -/

theorem exportName?_congr (registry : Registry) {file other : Path} (h : other.Same file)
    (name : String) : registry.exportName? other name = registry.exportName? file name := by
  rw [exportName?_eq_find?, exportName?_eq_find?, aliases?_congr registry h]

/-- A registration answers what the registry holds after it. -/
theorem exportName?_register (ledger : Ledger) (file : Path) (name : String) :
    (ledger.register file name).2.registry.exportName? file name =
      some (ledger.register file name).1 := by
  unfold Ledger.register
  split
  · assumption
  · rename_i hnew
    rw [exportName?_eq_find?, Option.map_eq_none_iff] at hnew
    rw [exportName?_eq_find?, Registry.aliases?_add, if_pos (Path.Same.refl file),
      Option.getD_some, List.find?_append, hnew]
    simp

theorem isStartOf_answer (ledger : Ledger) (call : Call) :
    ledger.registry.IsStartOf (ledger.answer call).2.registry := by
  cases call with
  | register file name => exact isStartOf_register ledger file name
  | next name => exact Registry.IsStartOf.refl _

theorem isStartOf_after (ledger : Ledger) (calls : List Call) :
    ledger.registry.IsStartOf (ledger.after calls).registry := by
  induction calls generalizing ledger with
  | nil => exact Registry.IsStartOf.refl _
  | cons call calls ih => exact (isStartOf_answer ledger call).trans (ih _)

/-- A type that was registered keeps its answer, and asking again changes nothing. -/
theorem register_after (ledger : Ledger) (calls : List Call) {file other : Path}
    (h : other.Same file) (name : String) :
    ((ledger.register file name).2.after calls).register other name =
      ((ledger.register file name).1, (ledger.register file name).2.after calls) := by
  have hkept := (isStartOf_after (ledger.register file name).2 calls).exportName?_eq
    (exportName?_register ledger file name)
  rw [← exportName?_congr _ h] at hkept
  rw [Ledger.register, hkept]

/-! ## Runs -/

/-- What a run of calls on a new ledger promises. -/
structure KeepsBooks (calls : List Call) : Prop where
  /-- The registry lists the types under the strings that they were registered with. -/
  entries_eq : (Ledger.empty.after calls).registry.entries =
    importTable (registeredTypes (Ledger.empty.handouts calls))
  /-- No type is registered twice. -/
  types_apart : (Ledger.empty.after calls).registry.pairs.Pairwise fun s t => ¬ SameAlias s t
  /-- One more call leaves all that is registered in its place, under its export name. -/
  stays : ∀ call, (Ledger.empty.after calls).registry.IsStartOf
    (Ledger.empty.after (calls ++ [call])).registry
  /-- The strings for a name are the name itself and then the name with 1, 2 and so on. -/
  numbered : ∀ name k, (stringsFor name (Ledger.empty.handouts calls))[k]? =
    if k < (Ledger.empty.after calls).counts.count name then
      some (if k = 0 then name else name ++ toString k)
    else none
  /-- No string is handed out twice for one name. -/
  strings_apart : ∀ name, (stringsFor name (Ledger.empty.handouts calls)).Nodup
  /-- The count of a name is how many strings were handed out for it. -/
  counted : ∀ name, (Ledger.empty.after calls).counts.count name =
    (stringsFor name (Ledger.empty.handouts calls)).length
  /-- A registration that is repeated, perhaps under another spelling of the file, gets its first
  answer and leaves both tables as they are. -/
  repeats : ∀ earlier file name later, calls = earlier ++ .register file name :: later →
    ∀ other, other.Same file → (Ledger.empty.after calls).register other name =
      (((Ledger.empty.after earlier).register file name).1, Ledger.empty.after calls)

/-- **Books are kept.**  After every run of registrations and requests for strings, in whichever
order, no type is registered twice, what was registered stays, the strings of a name are numbered
without gaps, and registering a type again changes nothing. -/
theorem keepsBooks_after (calls : List Call) : KeepsBooks calls := by
  have htracks := tracks_after calls
  have hregistry : (Ledger.empty.after calls).registry =
      ⟨importTable (registeredTypes (Ledger.empty.handouts calls))⟩ :=
    congrArg Registry.mk htracks.entries_eq
  refine ⟨htracks.entries_eq, ?_, fun call => ?_, fun name k => ?_, fun name => ?_,
    htracks.count_eq, ?_⟩
  · rw [hregistry]
    exact pairwise_pairs_importTable htracks.types_apart
  · rw [Ledger.after_concat]
    exact isStartOf_answer _ call
  · rw [htracks.strings_eq, List.getElem?_map, ← htracks.count_eq]
    split
    · rename_i hlt
      rw [List.getElem?_range hlt]
      rfl
    · rename_i hge
      rw [List.getElem?_eq_none (by simpa using hge)]
      rfl
  · rw [htracks.strings_eq]
    exact List.Nodup.map (fun i j => numbered_inj.mp) List.nodup_range
  · rintro earlier file name later rfl other hother
    have hafter : Ledger.empty.after (earlier ++ .register file name :: later) =
        ((Ledger.empty.after earlier).register file name).2.after later :=
      List.foldl_append ..
    rw [hafter]
    exact register_after _ later hother name

/-- Two files with one name, and a string asked for in between. -/
example : stringsFor "Foo" (Ledger.empty.handouts
    [.register ⟨"/a.ts"⟩ "Foo", .next "Foo", .register ⟨"/b.ts"⟩ "Foo",
      .register ⟨"/./a.ts"⟩ "Foo"]) = ["Foo", "Foo1", "Foo2"] := by decide

end WebComponents.Exports
