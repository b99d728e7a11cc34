import Mathlib.Data.List.Basic
import WebComponents.Proofs.Exports.Growth
import WebComponents.Proofs.Records.Emission

/-!
# More components at the end

Components that come later leave the earlier ones alone (`synthesize_append`).  Two facts carry
this.  The records of a component are made right after its own registration, with the ledger that
the components before it left (`fst_synthesizeFrom_append`), and from there on the registry only
grows (`isStartOf_registerAll`).
-/

namespace WebComponents.Records

open Metadata Exports

theorem length_fst_synthesizeFrom (ledger : Ledger) (components : List Component) :
    (synthesizeFrom ledger components).1.length = components.length := by
  induction components generalizing ledger with
  | nil => rfl
  | cons component components ih =>
      simp only [synthesizeFrom, List.length_cons, ih]

/-- The later components go on with the ledger that the earlier ones left. -/
theorem fst_synthesizeFrom_append (ledger : Ledger) (components more : List Component) :
    (synthesizeFrom ledger (components ++ more)).1 =
      (synthesizeFrom ledger components).1 ++
        (synthesizeFrom (synthesizeFrom ledger components).2 more).1 := by
  induction components generalizing ledger with
  | nil => rfl
  | cons component components ih =>
      simp only [List.cons_append, synthesizeFrom, ih]

theorem isStartOf_synthesize_append (components more : List Component) :
    (synthesize components).exports.IsStartOf (synthesize (components ++ more)).exports := by
  have hledger : (synthesizeFrom .empty (components ++ more)).2 =
      (synthesizeFrom .empty components).2.registerAll (referredTypes more) := by
    rw [snd_synthesizeFrom, snd_synthesizeFrom, referredTypes_append]
    exact List.foldl_append
  change (synthesizeFrom .empty components).2.registry.IsStartOf
    (synthesizeFrom .empty (components ++ more)).2.registry
  rw [hledger]
  exact isStartOf_registerAll _ _

/-- **Earlier components are not disturbed.**  With more components at the end the records of the
first ones stay, the registry starts with what they registered, and every export name that they were
given stays. -/
theorem synthesize_append (components more : List Component) :
    (synthesize (components ++ more)).components.take components.length =
        (synthesize components).components ∧
      (synthesize components).exports.IsStartOf (synthesize (components ++ more)).exports ∧
      ∀ file name exportName,
        (synthesize components).exports.exportName? file name = some exportName →
          (synthesize (components ++ more)).exports.exportName? file name = some exportName := by
  have hstart := isStartOf_synthesize_append components more
  refine ⟨?_, hstart, fun file name exportName hname => hstart.exportName?_eq hname⟩
  change (synthesizeFrom .empty (components ++ more)).1.take components.length =
    (synthesizeFrom .empty components).1
  rw [fst_synthesizeFrom_append, ← length_fst_synthesizeFrom .empty components, List.take_left]

/-- A third component brings a file that is known and the name that `Size` was numbered to. -/
theorem synthesize_append_size :
    let components := [declaringComponent "x-a" ⟨"/a.tsx"⟩ ["Size"],
      declaringComponent "x-b" ⟨"/b.tsx"⟩ ["Size"]]
    let more := [declaringComponent "x-c" ⟨"/a.tsx"⟩ ["Size1", "Size"]]
    (synthesize (components ++ more)).components.take 2 = (synthesize components).components ∧
      (synthesize components).exports.exportName? ⟨"/b.tsx"⟩ "Size" = some "Size1" ∧
      (synthesize (components ++ more)).exports.exportName? ⟨"/b.tsx"⟩ "Size" = some "Size1" := by
  intro components more
  obtain ⟨hrecords, _, hnames⟩ := synthesize_append components more
  have hname : (synthesize components).exports.exportName? ⟨"/b.tsx"⟩ "Size" = some "Size1" := by
    decide
  exact ⟨hrecords, hname, hnames _ _ _ hname⟩

end WebComponents.Records
