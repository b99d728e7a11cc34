import Mathlib.Data.Set.Defs
import WebComponents.Proofs.Exports.Aliases

/-!
# Names that clash

Names are counted apart, so two types of different names may be exported under one name.  With the
names `Size` and `Size1` it happens after

```text
register /a.ts Size      Size
register /b.ts Size      Size1
register /c.ts Size1     Size1
```

Which names can clash is answered here for a set of names.  Some run of registrations with names
from the set makes two types clash if, and only if, one name of the set is another one with a
numeral after it (`exists_clashes_iff`).

One half is `numbered_meet`, for the numbers that a run hands out.  For the other half the run is
given: the shorter name is registered for as many files as the numeral says and one more, then the
longer name for one file.
-/

namespace WebComponents.Exports

open NameCounts

/-- Two different types are exported under one name. -/
def Clashes (registry : Registry) : Prop :=
  ∃ first second : Path × String, ¬ SameType first second ∧
    ∃ exportName, registry.exportName? first.1 first.2 = some exportName ∧
      registry.exportName? second.1 second.2 = some exportName

variable {types : List (Path × String)} {file : Path} {name other exportName : String}

/-! ## The numbers of a run -/

/-- An export name is numbered by the types of its name before. -/
theorem exists_number_of_exportName?
    (h : (Ledger.empty.registerAll types).registry.exportName? file name = some exportName) :
    ∃ i spelled, (firsts SameType types)[i]? = some (spelled, name) ∧ spelled.Same file ∧
      exportName = numbered name (countNamed ((firsts SameType types).take i) name) := by
  rw [(tabulates_registerAll types).registry_eq] at h
  obtain ⟨⟨spelled, _⟩, hpair, rfl⟩ := List.mem_map.mp (mem_aliasesOf_of_exportName? h)
  obtain ⟨hmem, hsame⟩ := List.mem_filter.mp hpair
  obtain ⟨i, htype, hname⟩ := mem_numberTypes.mp hmem
  exact ⟨i, spelled, htype, by simpa using hsame, hname⟩

theorem exportName?_of_mem
    (h : (file, Alias.mk name exportName) ∈ numberTypes (firsts SameType types)) :
    (Ledger.empty.registerAll types).registry.exportName? file name = some exportName := by
  have hmem : Alias.mk name exportName ∈ aliasesOf (numberTypes (firsts SameType types)) file :=
    List.mem_map_of_mem (f := (·.2))
      (List.mem_filter.mpr ⟨h, by simpa using Path.Same.refl file⟩)
  have hfind := find?_eq_some_of_mem (nodup_localNames (pairwise_firsts SameType types) file) hmem
  rw [(tabulates_registerAll types).registry_eq, exportName?_eq_find?, getD_aliases?_importTable,
    hfind, Option.map_some]

/-- Each number below the count of a name is that of one of its types. -/
theorem exists_exportName?_numbered {k : Nat} (h : k < countNamed (firsts SameType types) name) :
    ∃ file, (Ledger.empty.registerAll types).registry.exportName? file name =
      some (numbered name k) := by
  obtain ⟨i, file, htype, hcount⟩ := exists_countNamed_take h
  exact ⟨file, exportName?_of_mem (mem_numberTypes.mpr ⟨i, htype, by rw [hcount]⟩)⟩

/-! ## Clashes come from numerals -/

theorem exists_numeral_of_eq_numbered {k : Nat} (hk : 0 < k) (h : other = numbered name k) :
    ∃ numeral, IsNumeral numeral ∧ other.toList = name.toList ++ numeral :=
  ⟨Nat.toDigits 10 k, isNumeral_iff.mpr ⟨k, hk, rfl⟩, by rw [h, toList_numbered name (by omega)]⟩

/-- Of two types that clash, one has the name of the other with a numeral after it. -/
theorem exists_numeral_of_clashes (h : Clashes (Ledger.empty.registerAll types).registry) :
    ∃ first ∈ types, ∃ second ∈ types, ∃ numeral, IsNumeral numeral ∧
      second.2.toList = first.2.toList ++ numeral := by
  obtain ⟨⟨file, name⟩, ⟨otherFile, other⟩, hdifferent, exportName, hfirst, hsecond⟩ := h
  obtain ⟨i, spelled, htype, hsame, hnumber⟩ := exists_number_of_exportName? hfirst
  obtain ⟨j, otherSpelled, hotherType, hotherSame, hotherNumber⟩ :=
    exists_number_of_exportName? hsecond
  have hmem := mem_of_mem_firsts (List.mem_of_getElem? htype)
  have hotherMem := mem_of_mem_firsts (List.mem_of_getElem? hotherType)
  rw [hnumber] at hotherNumber
  by_cases hname : name = other
  · -- one name and one number leave one place in the table, hence one type
    subst hname
    have hplace : i = j := countNamed_take_inj htype hotherType (numbered_inj.mp hotherNumber)
    rw [hplace, hotherType] at htype
    cases htype
    exact absurd ⟨hsame.symm.trans hotherSame, rfl⟩ hdifferent
  · rcases numbered_meet hname hotherNumber with ⟨k, hpos, _, heq⟩ | ⟨k, hpos, _, heq⟩
    · exact ⟨_, hmem, _, hotherMem, exists_numeral_of_eq_numbered hpos heq⟩
    · exact ⟨_, hotherMem, _, hmem, exists_numeral_of_eq_numbered hpos heq⟩

/-! ## Numerals lead to clashes -/

/-- Types of one name, each in a file of its own. -/
def namesakes (name : String) (n : Nat) : List (Path × String) :=
  (List.range n).map fun i => (⟨numbered "file" i⟩, name)

theorem isName_numbered_file (i : Nat) : Path.IsName (numbered "file" i) := by
  have hslash : '/' ∉ (numbered "file" i).toList := by
    by_cases hi : i = 0
    · rw [hi, numbered_zero]
      decide
    · rw [toList_numbered _ hi, List.mem_append, not_or]
      refine ⟨by decide, fun hmem => ?_⟩
      exact absurd (Nat.isDigit_of_mem_toDigits (by omega) (by omega) hmem) (by decide)
  obtain ⟨digits, hdigits⟩ := toList_prefix_numbered "file" i
  refine ⟨?_, hslash, ?_, ?_⟩ <;> rw [← hdigits] <;> simp

theorem same_numbered_file_iff {i j : Nat} :
    (Path.mk (numbered "file" i)).Same ⟨numbered "file" j⟩ ↔ i = j := by
  rw [Path.Same, Path.segments_name (isName_numbered_file i),
    Path.segments_name (isName_numbered_file j)]
  simp [numbered_inj]

theorem pairwise_namesakes (name : String) (n : Nat) :
    (namesakes name n).Pairwise fun earlier later => ¬ SameType later earlier := by
  refine List.pairwise_map.mpr (List.nodup_range.imp fun hne hsame => hne ?_)
  exact (same_numbered_file_iff.mp hsame.1).symm

theorem countNamed_namesakes (name : String) (n : Nat) :
    countNamed (namesakes name n) name = n := by
  simp [countNamed, namesakes, List.countP_map, Function.comp_def]

/-- The number after the shorter name is handed out to the last of its types, and the longer name
is still free then. -/
theorem clashes_namesakes {k : Nat} (hk : 0 < k) (h : other = numbered name k) :
    Clashes (Ledger.empty.registerAll
      (namesakes name (k + 1) ++ [(⟨"file"⟩, other)])).registry := by
  have hne : other ≠ name := fun heq =>
    absurd (numbered_eq_self_iff.mp (h.symm.trans heq)) (by omega)
  have hdifferent : ∀ earlier ∈ namesakes name (k + 1), ∀ later ∈ [(Path.mk "file", other)],
      ¬ SameType later earlier := by
    intro earlier hearlier later hlater hsame
    obtain ⟨i, _, rfl⟩ := List.mem_map.mp hearlier
    rw [List.mem_singleton.mp hlater] at hsame
    exact hne hsame.2
  have hdistinct := firsts_eq_self (List.pairwise_append.mpr
    ⟨pairwise_namesakes name (k + 1), List.pairwise_singleton _ _, hdifferent⟩)
  have hcount : k < countNamed
      (firsts SameType (namesakes name (k + 1) ++ [(⟨"file"⟩, other)])) name := by
    rw [hdistinct, countNamed_concat, if_neg hne, countNamed_namesakes]
    exact Nat.lt_succ_self k
  have hotherCount : 0 < countNamed
      (firsts SameType (namesakes name (k + 1) ++ [(⟨"file"⟩, other)])) other := by
    rw [hdistinct, countNamed_concat, if_pos rfl]
    exact Nat.succ_pos _
  obtain ⟨file, hfile⟩ := exists_exportName?_numbered hcount
  obtain ⟨otherFile, hotherFile⟩ := exists_exportName?_numbered hotherCount
  rw [← h] at hfile
  rw [numbered_zero] at hotherFile
  exact ⟨(file, name), (otherFile, other), fun hsame => hne hsame.2.symm, other, hfile, hotherFile⟩

/-- **Which names can clash.**  Some run of registrations with names from the set ends with two
types under one export name, exactly if one of the names is another one with a numeral after it. -/
theorem exists_clashes_iff (names : Set String) :
    (∃ types : List (Path × String), (∀ type ∈ types, type.2 ∈ names) ∧
        Clashes (Ledger.empty.registerAll types).registry) ↔
      ∃ name ∈ names, ∃ other ∈ names, ∃ numeral, IsNumeral numeral ∧
        other.toList = name.toList ++ numeral := by
  constructor
  · rintro ⟨types, htypes, hclashes⟩
    obtain ⟨first, hfirst, second, hsecond, hmeet⟩ := exists_numeral_of_clashes hclashes
    exact ⟨first.2, htypes first hfirst, second.2, htypes second hsecond, hmeet⟩
  · rintro ⟨name, hname, other, hother, numeral, hnumeral, hmeet⟩
    obtain ⟨k, hpos, rfl⟩ := isNumeral_iff.mp hnumeral
    have hnumber : other = numbered name k := by
      refine String.toList_injective ?_
      rw [hmeet, toList_numbered name (by omega)]
    refine ⟨_, fun type htype => ?_, clashes_namesakes hpos hnumber⟩
    rcases List.mem_append.mp htype with hmem | hmem
    · obtain ⟨i, _, rfl⟩ := List.mem_map.mp hmem
      exact hname
    · rw [List.mem_singleton.mp hmem]
      exact hother

end WebComponents.Exports
