import WebComponents.Proofs.Scaffold.Layout

/-!
# The files of a plan as a batch

The files of a plan are written as one batch, each at a place of its own, whatever was asked for and
however often:

```text
asked for                     places                         outcomes
stylesheet, component,        my-card.tsx                    my-card.tsx             written
spec test, stylesheet         my-card.css                    my-card.css             skipped
                              test/my-card.spec.tsx          test/my-card.spec.tsx   written
```

Repeated kinds are dropped, and those that stay keep the order in which they first stand in the
request (`listsRequested_ofInput`).  The places come from the kinds, and so do the files of the
batch, each time by a pass of its own; the two agree file by file, and so do the outcomes of any run
of the batch (`ofInput_apart_and_aligned`).
-/

namespace WebComponents.Scaffold

open WebComponents.Path Commands Files

variable {plan : Plan} {kind : FileKind} {kinds requested : List FileKind} {sourceDir : Path}
  {input : String} {tree : FileTree}

/-! ## The kinds -/

/-- The component comes first, and after it each other kind that was asked for, once and in the
order of first appearance. -/
structure ListsRequested (requested kinds : List FileKind) : Prop where
  head?_eq : kinds.head? = some .component
  mem_tail_iff : ∀ kind, kind ∈ kinds.tail ↔ kind ∈ requested ∧ kind ≠ .component
  pairwise_tail : kinds.tail.Pairwise fun kind other =>
    requested.idxOf kind < requested.idxOf other

theorem mem_distinctKinds_iff : kind ∈ distinctKinds kinds ↔ kind ∈ kinds := by
  induction kinds with
  | nil => rfl
  | cons first kinds ih =>
      rw [distinctKinds, List.mem_cons, List.mem_cons, List.mem_filter, ih]
      by_cases hfirst : kind = first
      · simp [hfirst]
      · simp [hfirst]

theorem pairwise_distinctKinds (kinds : List FileKind) :
    (distinctKinds kinds).Pairwise fun kind other => kinds.idxOf kind < kinds.idxOf other := by
  induction kinds with
  | nil => exact .nil
  | cons first kinds ih =>
      have hlater {kind : FileKind} (h : kind ∈ (distinctKinds kinds).filter (· ≠ first)) :
          (first :: kinds).idxOf kind = kinds.idxOf kind + 1 := by
        have hne : kind ≠ first := by simpa using (List.mem_filter.mp h).2
        exact List.idxOf_cons_ne kinds hne.symm
      rw [distinctKinds, List.pairwise_cons]
      constructor
      · intro kind hkind
        rw [List.idxOf_cons_self, hlater hkind]
        exact Nat.succ_pos _
      · refine (ih.filter _).imp_of_mem fun hkind hother hlt => ?_
        rw [hlater hkind, hlater hother]
        exact Nat.succ_lt_succ hlt

theorem listsRequested_ofInput (sourceDir : Path) (input : String) (requested : List FileKind) :
    ListsRequested requested (Plan.ofInput sourceDir input requested).kinds where
  head?_eq := rfl
  mem_tail_iff kind := by
    change kind ∈ (distinctKinds requested).filter (· ≠ .component) ↔ _
    rw [List.mem_filter, mem_distinctKinds_iff, decide_eq_true_iff]
  pairwise_tail := (pairwise_distinctKinds requested).filter _

/-! ## Places and outcomes -/

theorem pairwise_files (hslash : '/' ∉ plan.tag.toList) (hnodup : plan.kinds.Nodup) :
    plan.files.Pairwise fun file other => ¬ file.2.Same other.2 ∧
      ¬ file.2.segments <+: other.2.segments ∧ ¬ other.2.segments <+: file.2.segments := by
  refine List.pairwise_map.mpr (hnodup.imp fun hne => ?_)
  have hbelow := not_prefix_segments_path hslash hne
  have habove := not_prefix_segments_path hslash hne.symm
  exact ⟨fun hsame => hbelow ⟨[], (List.append_nil _).trans hsame⟩, hbelow, habove⟩

theorem map_path_plannedFiles (plan : Plan) :
    (plannedFiles plan).map (·.path) = plan.files.map (·.2) := by
  rw [plannedFiles, Plan.files, List.map_map, List.map_map]
  rfl

/-- **The files of a batch are apart, and its outcomes in order.**  Whatever the input and the
request say, the plan has the component and each other requested kind once, in the order of first
appearance; no file is at the place of another, nor at or below it; and the files have one outcome
each, under the same path and in the same order, as does every other run of the batch. -/
theorem ofInput_apart_and_aligned (sourceDir : Path) (input : String)
    (requested : List FileKind) (tree : FileTree) :
    let plan := Plan.ofInput sourceDir input requested
    ListsRequested requested plan.kinds ∧ plan.files.map (·.1) = plan.kinds ∧
      (plan.files.Pairwise fun file other => ¬ file.2.Same other.2 ∧
        ¬ file.2.segments <+: other.2.segments ∧ ¬ other.2.segments <+: file.2.segments) ∧
      (writePlanned plan tree).1.map (·.path) = plan.files.map (·.2) ∧
      ∀ outcomes final, RunsTo tree (plannedFiles plan) outcomes final →
        outcomes.map (·.path) = plan.files.map (·.2) := by
  intro plan
  have hpaths {outcomes : List WriteOutcome} {final : FileTree}
      (h : RunsTo tree (plannedFiles plan) outcomes final) :
      outcomes.map (·.path) = plan.files.map (·.2) :=
    h.1.trans (map_path_plannedFiles plan)
  refine ⟨listsRequested_ofInput sourceDir input requested, ?_, ?_, ?_, fun _ _ h => hpaths h⟩
  · rw [Plan.files, List.map_map]
    exact List.map_id _
  · exact pairwise_files (slash_notMem_componentTag input) (nodup_distinctKinds _)
  · exact hpaths (runsTo_writeAll tree (plannedFiles plan))

/-- An input without a tag, with a stylesheet asked for twice and the component after it. -/
theorem ofInput_apart_and_aligned_nameless :
    let plan := Plan.ofInput ⟨"/p/src"⟩ "forms/.." [.stylesheet, .component, .specTest, .stylesheet]
    let tree : FileTree := ⟨[(["p"], .directory)], []⟩
    RunsTo tree (plannedFiles plan) (writePlanned plan tree).1 (writePlanned plan tree).2 ∧
      plan.kinds = [.component, .stylesheet, .specTest] ∧
      ∀ outcomes final, RunsTo tree (plannedFiles plan) outcomes final →
        outcomes.map (·.path) = [⟨"/p/src/components/forms/.tsx"⟩,
          ⟨"/p/src/components/forms/.css"⟩, ⟨"/p/src/components/forms/test/.spec.tsx"⟩] := by
  intro plan tree
  have hplaces : plan.files.map (·.2) = [⟨"/p/src/components/forms/.tsx"⟩,
      ⟨"/p/src/components/forms/.css"⟩, ⟨"/p/src/components/forms/test/.spec.tsx"⟩] := by
    decide
  obtain ⟨-, -, -, -, hruns⟩ := ofInput_apart_and_aligned ⟨"/p/src"⟩ "forms/.."
    [.stylesheet, .component, .specTest, .stylesheet] tree
  refine ⟨runsTo_writeAll tree (plannedFiles plan), by decide, fun outcomes final h => ?_⟩
  exact (hruns outcomes final h).trans hplaces

end WebComponents.Scaffold
