import WebComponents.Proofs.Files.Steps
import WebComponents.Scaffold.Plan

/-!
# Where planned files lie

The tag is the last name of the input and the directories above it come from the parent of the
input.  Both are read off one text by different functions, and together they use each name of the
input once and nothing else (`names_eq_parent_append_fileName`):

```text
input                  parent            tag       directory below the components
forms/my-input         forms             my-input  forms my-input
../../out/./my-x       ../../out         my-x      out my-x
/tmp/..                /tmp              (empty)   tmp
```

So a plan stays below the directory of the components whatever the input says
(`ofInput_stays_below`).
-/

namespace WebComponents.Path

/-! ## Names of a path -/

/-- The text of a segment that is a name. -/
def Segment.name? : Segment → Option String
  | .name text => some text
  | _ => none

/-- The names among the segments of a path, in order. -/
def names (path : Path) : List String :=
  path.segments.filterMap Segment.name?

theorem mem_segments_of_mem_names {path : Path} {text : String} (h : text ∈ path.names) :
    .name text ∈ path.segments := by
  obtain ⟨segment, hsegment, htext⟩ := List.mem_filterMap.mp h
  cases segment with
  | root => cases htext
  | current => cases htext
  | parent => cases htext
  | name name =>
      cases htext
      exact hsegment

theorem filter_eq_map_name {p : Segment → Bool} (hp : ∀ segment, p segment = segment.name?.isSome)
    (segments : List Segment) :
    segments.filter p = (segments.filterMap Segment.name?).map .name := by
  induction segments with
  | nil => rfl
  | cons segment segments ih =>
      rw [List.filter_cons, hp, ih]
      cases segment <;> rfl

/-- The names of a path are those of its parent and the name that the path ends with. -/
theorem names_eq_parent_append_fileName (path : Path) :
    path.names = (path.parent?.map names).getD [] ++ path.fileName?.toList := by
  unfold fileName?
  cases hparent : path.parent? with
  | none =>
      rcases Files.FileTree.segments_of_parent?_eq_none hparent with hnil | hroot
      · simp [names, hnil]
      · simp [names, hroot, Segment.name?]
  | some above =>
      obtain ⟨last, hlast⟩ := Files.FileTree.segments_of_parent? hparent
      rw [names, hlast, List.filterMap_append, List.getLast?_concat]
      cases last <;> rfl

/-- Joining the empty path adds no segment. -/
theorem segments_join_empty {base : Path} (h : base.text ≠ "") :
    (base.join ⟨""⟩).segments = base.segments := by
  rw [segments_join h rfl, segments_empty, List.filter_nil, List.append_nil]

theorem segments_join_name (base : Path) {text : String} (h : IsName text) :
    (base.join ⟨text⟩).segments = base.segments ++ [.name text] :=
  @segments_join_inner base (.name text) h

end WebComponents.Path

namespace WebComponents.Scaffold

open WebComponents.Path

/-! ## The directory of the component -/

/-- The names that lead from the directory of the components to the one of the component. -/
def namesAbove (input : String) : List String :=
  ((Path.mk input).parent?.map Path.names).getD []

theorem componentDirectory_eq (sourceDir : Path) (input : String) :
    componentDirectory sourceDir input =
      (((namesAbove input).map Segment.name).foldl (fun path segment => path.join ⟨segment.text⟩)
        (sourceDir.join ⟨componentsDirectory⟩)).join ⟨componentTag input⟩ := by
  have hnames : (((Path.mk input).parent?.map Path.segments).getD []).filterMap Segment.name? =
      namesAbove input := by
    unfold namesAbove
    cases (Path.mk input).parent? <;> rfl
  unfold componentDirectory
  simp only
  rw [filter_eq_map_name fun segment => by cases segment <;> rfl, hnames]

theorem segments_componentsDirectory (sourceDir : Path) :
    (sourceDir.join ⟨componentsDirectory⟩).segments =
      sourceDir.segments ++ [.name componentsDirectory] :=
  segments_join_name sourceDir (by refine ⟨?_, ?_, ?_, ?_⟩ <;> decide)

theorem mem_names_of_mem_namesAbove {input name : String} (h : name ∈ namesAbove input) :
    name ∈ (Path.mk input).names := by
  rw [names_eq_parent_append_fileName]
  exact List.mem_append_left _ h

theorem mem_names_of_fileName? {path : Path} {name : String} (h : path.fileName? = some name) :
    name ∈ path.names := by
  rw [names_eq_parent_append_fileName, h]
  simp

theorem isName_of_mem_namesAbove {input name : String} (h : name ∈ namesAbove input) :
    IsName name :=
  isName_of_mem_segments (mem_segments_of_mem_names (mem_names_of_mem_namesAbove h))

theorem isName_of_fileName? {path : Path} {name : String} (h : path.fileName? = some name) :
    IsName name :=
  isName_of_mem_segments (mem_segments_of_mem_names (mem_names_of_fileName? h))

/-- The directory of the component lies below that of the components, along the names of the input.
-/
theorem segments_componentDirectory (sourceDir : Path) (input : String) :
    (componentDirectory sourceDir input).segments =
      (sourceDir.join ⟨componentsDirectory⟩).segments ++ (Path.mk input).names.map .name := by
  have hinner : ∀ segment ∈ (namesAbove input).map Segment.name, segment.IsInner := by
    intro segment hsegment
    obtain ⟨name, hname, rfl⟩ := List.mem_map.mp hsegment
    exact isName_of_mem_namesAbove hname
  have habove := segments_foldl_join (sourceDir.join ⟨componentsDirectory⟩) hinner
  rw [componentDirectory_eq, names_eq_parent_append_fileName, List.map_append, ← List.append_assoc]
  change _ = _ ++ (namesAbove input).map Segment.name ++ _
  rw [← habove, componentTag]
  cases htag : (Path.mk input).fileName? with
  | none =>
      refine (segments_join_empty ?_).trans (by simp)
      intro hempty
      have hnil := congrArg Path.segments (congrArg Path.mk hempty)
      change Path.segments (List.foldl _ _ _) = _ at hnil
      rw [habove, segments_empty, segments_componentsDirectory] at hnil
      simp at hnil
  | some tag => exact segments_join_name _ (isName_of_fileName? htag)

/-! ## The files -/

theorem slash_notMem_componentTag (input : String) : '/' ∉ (componentTag input).toList := by
  unfold componentTag
  cases htag : (Path.mk input).fileName? with
  | none => simp
  | some tag => exact (isName_of_fileName? htag).2.1

/-- The name of a planned file. -/
def Plan.fileName (plan : Plan) (kind : FileKind) : String :=
  plan.tag ++ "." ++ kind.extension

theorem isName_append_extension {tag : String} (h : '/' ∉ tag.toList) (kind : FileKind) :
    IsName (tag ++ "." ++ kind.extension) := by
  have hlength : 3 ≤ (tag ++ "." ++ kind.extension).toList.length := by
    cases kind <;> simp [FileKind.extension]
  refine ⟨?_, ?_, ?_, ?_⟩
  · intro hnil
    simp [hnil] at hlength
  · cases kind <;> simp [FileKind.extension, h]
  · intro hdot
    simp [hdot] at hlength
  · intro hdots
    simp [hdots] at hlength

theorem isName_testDirectory : IsName testDirectory := by
  refine ⟨?_, ?_, ?_, ?_⟩ <;> decide

/-- The directory that a file of the plan lies in. -/
def Plan.directoryOf (plan : Plan) (kind : FileKind) : Path :=
  if kind.isTest then plan.directory.join ⟨testDirectory⟩ else plan.directory

theorem Plan.path_eq (plan : Plan) (kind : FileKind) :
    plan.path kind = (plan.directoryOf kind).join ⟨plan.fileName kind⟩ := by
  unfold Plan.path filePath Plan.directoryOf
  split <;> rfl

theorem Plan.directoryOf_mem {plan : Plan} {kind : FileKind} (hkind : kind ∈ plan.kinds) :
    plan.directoryOf kind ∈ plan.directories := by
  unfold Plan.directoryOf
  split
  · rename_i htest
    have htests : plan.hasTests = true := List.any_eq_true.mpr ⟨kind, hkind, htest⟩
    simp [Plan.directories, htests]
  · exact List.mem_cons_self

/-- A planned file is in the directory of the component, and a test one directory deeper. -/
theorem segments_path {plan : Plan} (h : '/' ∉ plan.tag.toList) (kind : FileKind) :
    (plan.path kind).segments = plan.directory.segments ++
      (if kind.isTest then [.name testDirectory] else []) ++ [.name (plan.fileName kind)] := by
  have hname : IsName (plan.fileName kind) := isName_append_extension h kind
  rw [Plan.path_eq, segments_join_name _ hname, Plan.directoryOf]
  congr 1
  split
  · exact segments_join_name _ isName_testDirectory
  · exact (List.append_nil _).symm

/-- **Plans stay below the directory of the components.**  Whatever the input says, its names lead
from there to the directory of the component, and each file lies in that directory or in the one for
tests inside it. -/
theorem ofInput_stays_below (sourceDir : Path) (input : String) (requested : List FileKind) :
    let plan := Plan.ofInput sourceDir input requested
    let components := sourceDir.join ⟨componentsDirectory⟩
    plan.directory.segments = components.segments ++ (Path.mk input).names.map .name ∧
      ∀ file ∈ plan.files,
        file.2.segments = plan.directory.segments ++
            (if file.1.isTest then [.name testDirectory] else []) ++
              [.name (plan.fileName file.1)] ∧
          ∃ below : List String, file.2.segments = components.segments ++ below.map .name := by
  intro plan components
  have hdirectory : plan.directory.segments =
      components.segments ++ (Path.mk input).names.map .name :=
    segments_componentDirectory sourceDir input
  refine ⟨hdirectory, fun file hfile => ?_⟩
  obtain ⟨kind, _, rfl⟩ := List.mem_map.mp hfile
  have htag : '/' ∉ plan.tag.toList := slash_notMem_componentTag input
  have hpath := segments_path htag kind
  refine ⟨hpath, (Path.mk input).names ++ (if kind.isTest then [testDirectory] else []) ++
    [plan.fileName kind], ?_⟩
  rw [hpath, hdirectory]
  split <;> simp

/-- An input that tries to leave, with a spec test. -/
theorem ofInput_stays_below_outside :
    let plan := Plan.ofInput ⟨"/p/src"⟩ "../../outside/./my-x" [.specTest]
    let path : Path := ⟨"/p/src/components/outside/my-x/test/my-x.spec.tsx"⟩
    (FileKind.specTest, path) ∈ plan.files ∧
      plan.directory.segments = [.root, .name "p", .name "src", .name "components",
        .name "outside", .name "my-x"] ∧
      path.segments = plan.directory.segments ++ [.name "test", .name "my-x.spec.tsx"] := by
  intro plan path
  have hfile : (FileKind.specTest, path) ∈ plan.files := by decide
  obtain ⟨hdirectory, hfiles⟩ :=
    ofInput_stays_below ⟨"/p/src"⟩ "../../outside/./my-x" [.specTest]
  have hnames : ((Path.mk "/p/src").join ⟨componentsDirectory⟩).segments ++
      (Path.mk "../../outside/./my-x").names.map Segment.name =
        [.root, .name "p", .name "src", .name "components", .name "outside", .name "my-x"] := by
    decide
  refine ⟨hfile, hdirectory.trans hnames, (hfiles _ hfile).1.trans ?_⟩
  rw [List.append_assoc]
  rfl

end WebComponents.Scaffold
