import Mathlib.Data.List.Basic
import WebComponents.Proofs.Records.Emission

/-!
# The export names of a synthesis

The registry of a synthesis is a table that can be read off the components: the distinct types in
order, grouped by file, each numbered by the types of its name before it (`entries_synthesize`).

Two types then share an export name exactly if the name of one is that of the other with a number
that was handed out (`collisionFree_exports_iff`).  For a shared name the numbers may be large on
both sides, as in `Size` with `12` and `Size1` with `2`; but then `Size` was numbered `1` before, so
the name `Size1` itself is met.
-/

namespace WebComponents.Records

open Metadata Exports NameCounts

/-! ## The table -/

/-- The registry lists the declaring files in order of first sight, as they were first spelled, and
under each its names in order of first sight, every name numbered over all files. -/
theorem entries_synthesize (components : List Component) :
    (synthesize components).exports.entries =
      importTable (numberTypes (firsts SameType (referredTypes components))) := by
  rw [exports_synthesize]
  rfl

/-! ## Types that share an export name -/

/-- Different types have different export names. -/
def CollisionFree (registry : Registry) : Prop :=
  ∀ first ∈ registry.pairs, ∀ second ∈ registry.pairs,
    first.2.exportName = second.2.exportName →
      SameType (first.1, first.2.localName) (second.1, second.2.localName)

instance (registry : Registry) : Decidable (CollisionFree registry) :=
  inferInstanceAs (Decidable (∀ first ∈ registry.pairs, ∀ second ∈ registry.pairs,
    first.2.exportName = second.2.exportName →
      SameType (first.1, first.2.localName) (second.1, second.2.localName)))

/-- A number below the count of a name was handed out with it. -/
theorem exists_mem_pairs_numbered {components : List Component} {name : String} {k : Nat}
    (h : k < countNamed (distinctTypes components) name) :
    ∃ file, (file, Alias.mk name (numbered name k)) ∈ (synthesize components).exports.pairs := by
  obtain ⟨i, file, htype, hcount⟩ := exists_countNamed_take h
  have hmem : (file, Alias.mk name (numbered name k)) ∈ exportedTypes components :=
    mem_numberTypes.mpr ⟨i, htype, by rw [hcount]⟩
  obtain ⟨other, hother, _⟩ := exists_mem_pairs_importTable hmem
  exact ⟨other, by rwa [exports_synthesize]⟩

/-- An export name is the local name with a number below the count of the name. -/
theorem exists_number_of_mem_pairs {components : List Component} {file : Path} {item : Alias}
    (h : (file, item) ∈ (synthesize components).exports.pairs) :
    ∃ i other, (distinctTypes components)[i]? = some (other, item.localName) ∧ other.Same file ∧
      item.exportName = numbered item.localName
        (countNamed ((distinctTypes components).take i) item.localName) := by
  rw [exports_synthesize] at h
  obtain ⟨other, hother, hsame⟩ := mem_pairs_importTable h
  obtain ⟨i, htype, hname⟩ := mem_numberTypes.mp hother
  exact ⟨i, other, htype, hsame, hname⟩

theorem countNamed_pos_of_mem {types : List (Path × String)} {type : Path × String}
    (h : type ∈ types) : 0 < countNamed types type.2 :=
  List.countP_pos_iff.mpr ⟨type, h, by simp⟩

theorem ne_append_of_collisionFree {components : List Component}
    (h : CollisionFree (synthesize components).exports) {second : Path × String}
    (hsecond : second ∈ distinctTypes components) {name : String} {k : Nat} (hpos : 0 < k)
    (hlt : k < countNamed (distinctTypes components) name) : second.2 ≠ name ++ toString k := by
  intro heq
  obtain ⟨file, hfile⟩ := exists_mem_pairs_numbered hlt
  obtain ⟨other, hother⟩ := exists_mem_pairs_numbered (countNamed_pos_of_mem hsecond)
  have hnumbered : numbered name k = second.2 := by
    rw [heq, numbered, if_neg (by omega)]
  have hsame : name = second.2 := (h _ hfile _ hother hnumbered).2
  exact absurd (numbered_eq_self_iff.mp (hnumbered.trans hsame.symm)) (by omega)

/-- Names that meet are one name, if no name is another one with a number that was handed out. -/
theorem eq_of_numbered_eq {types : List (Path × String)}
    (h : ∀ first ∈ types, ∀ second ∈ types, ∀ k, 0 < k → k < countNamed types first.2 →
      second.2 ≠ first.2 ++ toString k)
    {first second : Path × String} (hfirst : first ∈ types) (hsecond : second ∈ types) {i j : Nat}
    (hi : i < countNamed types first.2) (hj : j < countNamed types second.2)
    (hname : numbered first.2 i = numbered second.2 j) : first.2 = second.2 := by
  by_contra hne
  rcases numbered_meet hne hname with ⟨k, hpos, hle, heq⟩ | ⟨k, hpos, hle, heq⟩
  · rw [numbered, if_neg (by omega)] at heq
    exact h first hfirst second hsecond k hpos (by omega) heq
  · rw [numbered, if_neg (by omega)] at heq
    exact h second hsecond first hfirst k hpos (by omega) heq

/-- **Exactly when export names collide.**  All types have export names of their own if and only if
no name is another one followed by a number that was handed out with it. -/
theorem collisionFree_exports_iff (components : List Component) :
    CollisionFree (synthesize components).exports ↔
      ∀ first ∈ distinctTypes components, ∀ second ∈ distinctTypes components, ∀ k, 0 < k →
        k < countNamed (distinctTypes components) first.2 → second.2 ≠ first.2 ++ toString k := by
  constructor
  · intro h first _ second hsecond k hpos hlt
    exact ne_append_of_collisionFree h hsecond hpos hlt
  · rintro h ⟨file, item⟩ hitem ⟨other, otherItem⟩ hother hname
    obtain ⟨i, spelled, htype, hsame, hnumber⟩ := exists_number_of_mem_pairs hitem
    obtain ⟨j, otherSpelled, hotherType, hotherSame, hotherNumber⟩ :=
      exists_number_of_mem_pairs hother
    change item.exportName = otherItem.exportName at hname
    rw [hnumber, hotherNumber] at hname
    have hlocal : item.localName = otherItem.localName :=
      eq_of_numbered_eq h (List.mem_of_getElem? htype) (List.mem_of_getElem? hotherType)
        (countNamed_take_lt htype) (countNamed_take_lt hotherType) hname
    rw [hlocal] at htype hname
    -- one name and one number leave one place in the table
    have hplace : i = j := countNamed_take_inj htype hotherType (numbered_inj.mp hname)
    rw [hplace, hotherType] at htype
    cases htype
    exact ⟨hsame.symm.trans hotherSame, hlocal⟩

/-- The second `Size` gets the name that `Size1` has. -/
theorem not_collisionFree_size : ¬ CollisionFree
    (synthesize [declaringComponent "x-a" ⟨"/a.tsx"⟩ ["Size1", "Size"],
      declaringComponent "x-b" ⟨"/b.tsx"⟩ ["Size"]]).exports := by
  decide

end WebComponents.Records
