import WebComponents.Commands.Generate
import WebComponents.Proofs.Files.Batches
import WebComponents.Proofs.Files.Plain
import WebComponents.Proofs.Scaffold.Places

/-!
# The files of a plan do not meet

All files of a plan have one name with different extensions, and lie in the directory of the
component or, for tests, in the one below it:

```text
my-card/            directory           tests
        .tsx        my-card.tsx
        .css        my-card.css
        .spec.tsx   test                my-card.spec.tsx
        .e2e.ts     test                my-card.e2e.ts
```

A file name has a dot and the directory for tests has none, so no file lies at or below the place of
another (`not_prefix_segments_path`), and none takes the place of a directory that the plan needs
(`IsPlaced.not_prefix_directoryOf`).
-/

namespace WebComponents.Scaffold

open WebComponents.Path Files Files.FileTree

variable {plan : Plan} {kind other : FileKind} {sourceDir directory : Path} {input : String}

/-! ## Kinds and names -/

theorem nodup_distinctKinds (kinds : List FileKind) : (distinctKinds kinds).Nodup := by
  induction kinds with
  | nil => exact List.nodup_nil
  | cons kind kinds ih =>
      rw [distinctKinds, List.nodup_cons]
      exact ⟨by simp, ih.filter _⟩

theorem Plan.fileName_inj : plan.fileName kind = plan.fileName other ↔ kind = other := by
  refine ⟨fun h => ?_, congrArg _⟩
  have hextension : kind.extension = other.extension := by
    rw [← String.toList_inj] at h ⊢
    simpa [Plan.fileName] using h
  cases kind <;> cases other <;> first | rfl | exact absurd hextension (by decide)

theorem Plan.fileName_ne_testDirectory : plan.fileName kind ≠ testDirectory := by
  intro h
  have hdot : '.' ∈ (plan.fileName kind).toList := by simp [Plan.fileName]
  rw [h] at hdot
  revert hdot
  decide

/-- No file of a plan is at or below the place of another. -/
theorem not_prefix_segments_path (hslash : '/' ∉ plan.tag.toList) (hne : kind ≠ other) :
    ¬ (plan.path kind).segments <+: (plan.path other).segments := by
  have hname : plan.fileName kind ≠ plan.fileName other := mt Plan.fileName_inj.mp hne
  rw [segments_path hslash, segments_path hslash, List.append_assoc, List.append_assoc,
    List.prefix_append_right_inj]
  by_cases hkind : kind.isTest = true <;> by_cases hother : other.isTest = true
  · simpa [hkind, hother] using hname
  · simp [hkind, hother]
  · -- only a file with the name of the directory for tests could be in the way
    simpa [hkind, hother] using Plan.fileName_ne_testDirectory
  · simpa [hkind, hother] using hname

/-! ## Where the files of a plan lie -/

/-- A plan with distinct files, one of them that of the component, in a plain directory. -/
structure Plan.IsPlaced (plan : Plan) : Prop where
  isPlain : IsPlain plan.directory
  slash_notMem : '/' ∉ plan.tag.toList
  component_mem : .component ∈ plan.kinds
  nodup : plan.kinds.Nodup

/-- The directory of a component is plain if the source directory is. -/
theorem isPlain_componentDirectory (h : IsPlain sourceDir) (input : String) :
    IsPlain (componentDirectory sourceDir input) := by
  have hcomponents : IsName componentsDirectory := by refine ⟨?_, ?_, ?_, ?_⟩ <;> decide
  have hnames : ∀ name ∈ namesAbove input, IsName name := fun _ => isName_of_mem_namesAbove
  have habove := (h.join hcomponents).foldl_join hnames
  rw [componentDirectory_eq, componentTag]
  cases htag : (Path.mk input).fileName? with
  | none => exact habove.join_empty
  | some tag => exact habove.join (isName_of_fileName? htag)

theorem isPlaced_ofInput (h : IsPlain sourceDir) (input : String) (requested : List FileKind) :
    (Plan.ofInput sourceDir input requested).IsPlaced where
  isPlain := isPlain_componentDirectory h input
  slash_notMem := slash_notMem_componentTag input
  component_mem := List.mem_cons_self
  nodup := nodup_distinctKinds _

namespace Plan.IsPlaced

theorem exists_of_mem_directories (h : plan.IsPlaced) (hdirectory : directory ∈ plan.directories) :
    ∃ kind ∈ plan.kinds, directory = plan.directoryOf kind := by
  rcases List.mem_cons.mp hdirectory with rfl | htest
  · exact ⟨.component, h.component_mem, rfl⟩
  · split at htest
    · rename_i htests
      obtain ⟨kind, hkind, hisTest⟩ := List.any_eq_true.mp htests
      exact ⟨kind, hkind, by rw [List.mem_singleton.mp htest, Plan.directoryOf, if_pos hisTest]⟩
    · cases htest

theorem isPlain_directoryOf (h : plan.IsPlaced) (kind : FileKind) :
    IsPlain (plan.directoryOf kind) := by
  unfold Plan.directoryOf
  split
  · exact h.isPlain.join isName_testDirectory
  · exact h.isPlain

theorem isName_fileName (h : plan.IsPlaced) (kind : FileKind) : IsName (plan.fileName kind) :=
  isName_append_extension h.slash_notMem kind

theorem isPlain_path (h : plan.IsPlaced) (kind : FileKind) : IsPlain (plan.path kind) := by
  rw [Plan.path_eq]
  exact (h.isPlain_directoryOf kind).join (h.isName_fileName kind)

theorem locationOf_path (h : plan.IsPlaced) (kind : FileKind) :
    locationOf (plan.path kind) = locationOf (plan.directoryOf kind) ++ [plan.fileName kind] := by
  rw [Plan.path_eq, locationOf_join _ (h.isName_fileName kind)]

theorem stepsOf_path (h : plan.IsPlaced) (kind : FileKind) :
    stepsOf (plan.path kind).text.toList = entrySteps (plan.path kind) := by
  rw [Plan.path_eq]
  exact stepsOf_join _ (h.isName_fileName kind)

/-- No file is where a directory of the plan is to be made. -/
theorem not_prefix_directoryOf (h : plan.IsPlaced) (kind other : FileKind) :
    ¬ locationOf (plan.path kind) <+: locationOf (plan.directoryOf other) := by
  have hdirectory (kind : FileKind) : locationOf (plan.directoryOf kind) =
      locationOf plan.directory ++ if kind.isTest then [testDirectory] else [] := by
    unfold Plan.directoryOf
    split
    · exact locationOf_join _ isName_testDirectory
    · exact (List.append_nil _).symm
  rw [h.locationOf_path, hdirectory, hdirectory, List.append_assoc, List.prefix_append_right_inj]
  by_cases hkind : kind.isTest = true <;> by_cases hother : other.isTest = true
  · simp [hkind, hother]
  · simp [hkind, hother]
  · simpa [hkind, hother] using Plan.fileName_ne_testDirectory
  · simp [hkind, hother]

theorem areApart (h : plan.IsPlaced) : AreApart (Commands.plannedFiles plan) where
  isPlain file hfile := by
    obtain ⟨kind, _, rfl⟩ := List.mem_map.mp hfile
    exact h.isPlain_path kind
  apart := by
    refine List.pairwise_map.mpr (h.nodup.imp fun {kind other} hne => ?_)
    exact ⟨not_prefix_segments_path h.slash_notMem hne,
      not_prefix_segments_path h.slash_notMem hne.symm⟩

end Plan.IsPlaced

/-! ## Paths that the system takes -/

/-- No path of the plan is too long for the system, and no name in one. -/
structure Plan.IsWithinLimits (plan : Plan) : Prop where
  length_lt : ∀ kind ∈ plan.kinds, (plan.path kind).text.utf8ByteSize < maxPathLength
  isShort : ∀ kind ∈ plan.kinds, ∀ name ∈ locationOf (plan.path kind), IsShort name

theorem notMem_componentTag {c : Char} (h : c ∉ input.toList) :
    c ∉ (componentTag input).toList := by
  unfold componentTag
  cases htag : (Path.mk input).fileName? with
  | none => simp
  | some tag =>
      have hname := mem_segments_of_mem_names (mem_names_of_fileName? htag)
      exact fun hc => h (mem_text_of_mem_segments hname hc)

/-- Only the source directory can bring a NUL in. -/
theorem nul_mem_componentDirectory_iff (hinput : '\x00' ∉ input.toList) :
    '\x00' ∈ (componentDirectory sourceDir input).text.toList ↔
      '\x00' ∈ sourceDir.text.toList := by
  have htag : (Path.mk (componentTag input)).isAbsolute = false := by
    simp only [isAbsolute, beq_eq_false_iff_ne, ne_eq]
    exact fun hhead => slash_notMem_componentTag input (List.mem_of_mem_head? hhead)
  have hinner : ∀ segment ∈ (namesAbove input).map Segment.name, segment.IsInner := by
    intro segment hsegment
    obtain ⟨name, hname, rfl⟩ := List.mem_map.mp hsegment
    exact isName_of_mem_namesAbove hname
  rw [componentDirectory_eq, mem_text_join_iff htag (by decide),
    or_iff_left (notMem_componentTag hinput)]
  constructor
  · intro h
    rcases mem_text_foldl_join hinner h with hcomponents | hslash | ⟨segment, hsegment, hnul⟩
    · rw [mem_text_join_iff (by decide) (by decide)] at hcomponents
      exact hcomponents.resolve_right (by decide)
    · exact absurd hslash (by decide)
    · obtain ⟨name, hname, rfl⟩ := List.mem_map.mp hsegment
      have hsegments := mem_segments_of_mem_names (mem_names_of_mem_namesAbove hname)
      exact absurd (mem_text_of_mem_segments hsegments hnul) hinput
  · intro h
    refine (text_prefix_foldl_join _ hinner).subset ?_
    exact (text_prefix_join (by decide)).subset h

/-- A plan whose paths the system takes, if only what is there allows it. -/
structure Plan.Fits (plan : Plan) : Prop extends plan.IsPlaced where
  checkPath_path : ∀ kind ∈ plan.kinds, checkPath (plan.path kind) = .ok ()
  isShort_path : ∀ kind ∈ plan.kinds, ∀ name ∈ locationOf (plan.path kind), IsShort name

theorem Plan.IsPlaced.fits (h : plan.IsPlaced) (hlimits : plan.IsWithinLimits)
    (hdirectory : '\x00' ∉ plan.directory.text.toList) (htag : '\x00' ∉ plan.tag.toList) :
    plan.Fits where
  toIsPlaced := h
  checkPath_path kind hkind := by
    refine checkPath_eq_ok (h.isPlain_path kind).ne_empty ?_ (hlimits.length_lt kind hkind)
    have habove : '\x00' ∉ (plan.directoryOf kind).text.toList := by
      unfold Plan.directoryOf
      split
      · rw [mem_text_join_iff (by decide) (by decide), not_or]
        exact ⟨hdirectory, by decide⟩
      · exact hdirectory
    have hname : '\x00' ∉ (plan.fileName kind).toList := by
      cases kind <;> simp [Plan.fileName, FileKind.extension, htag]
    rw [Plan.path_eq, mem_text_join_iff (isAbsolute_name (h.isName_fileName kind)) (by decide),
      not_or]
    exact ⟨habove, hname⟩
  isShort_path := hlimits.isShort

namespace Plan.Fits

theorem checkPath_directoryOf (h : plan.Fits) (hkind : kind ∈ plan.kinds) :
    checkPath (plan.directoryOf kind) = .ok () := by
  have hpath := h.checkPath_path kind hkind
  rw [Plan.path_eq] at hpath
  exact checkPath_of_join (isAbsolute_name (h.isName_fileName kind))
    (h.isPlain_directoryOf kind).ne_empty hpath

theorem isShort_directoryOf (h : plan.Fits) (hkind : kind ∈ plan.kinds) :
    ∀ name ∈ locationOf (plan.directoryOf kind), IsShort name := by
  intro name hname
  refine h.isShort_path kind hkind name ?_
  rw [h.locationOf_path]
  exact List.mem_append_left _ hname

theorem isShort_fileName (h : plan.Fits) (hkind : kind ∈ plan.kinds) :
    IsShort (plan.fileName kind) := by
  refine h.isShort_path kind hkind _ ?_
  rw [h.locationOf_path]
  exact List.mem_append_right _ List.mem_cons_self

end Plan.Fits

end WebComponents.Scaffold
