import WebComponents.Proofs.Naming.Tags
import WebComponents.Proofs.Path.NormalForm
import WebComponents.Proofs.Scaffold.Places
import WebComponents.Proofs.Text.Lines
import WebComponents.Proofs.Typings.Resolving

/-!
# Generated files refer to each other

The files of a component name each other by class and by path, and each of them makes its own text:

```text
my-card/my-card.tsx              export class MyCard {    styleUrl: 'my-card.css',
my-card/my-card.css
my-card/test/my-card.spec.tsx    import { MyCard } from '../my-card';
```

The lines are found by their line breaks, so it matters that a tag without a fault has none, and
neither has the class that is named after it.  The paths are read in the directory of the file that
names them, and lead to the places of the plan if the source directory is clean
(`crossReferences_ofInput`).
-/

namespace WebComponents.Path

open Files.FileTree

variable {base path : Path} {front : List Segment} {name : String}

/-! ## Reading a path beside a file -/

theorem segments_directory (h : path.segments = front ++ [.name name]) :
    path.directory.segments = front := by
  unfold directory
  cases hparent : path.parent? with
  | none =>
      rcases segments_of_parent?_eq_none hparent with hnil | hroot
      · simp [h] at hnil
      · have hlast := congrArg List.getLast? hroot
        simp [h] at hlast
  | some above =>
      obtain ⟨last, hlast⟩ := segments_of_parent? hparent
      exact (List.append_inj_left' (h.symm.trans hlast) rfl).symm

theorem cleanSegments_concat_name (segments : List Segment) (name : String) :
    cleanSegments (segments ++ [.name name]) = cleanSegments segments ++ [.name name] := by
  rw [cleanSegments, List.foldl_append]
  exact List.reverse_cons

theorem resolve_name (hbase : IsRooted base.segments) (hname : IsName name) :
    base.resolve ⟨name⟩ = (ofSegments base.segments).join ⟨name⟩ := by
  rw [resolve, clean, segments_join_name base hname, cleanSegments_concat_name,
    cleanSegments_of_isRooted hbase, ofSegments, List.foldl_append]
  rfl

theorem segments_resolve_name (hbase : IsRooted base.segments) (hname : IsName name) :
    (base.resolve ⟨name⟩).segments = base.segments ++ [.name name] := by
  rw [resolve_name hbase hname, segments_join_name _ hname,
    segments_ofSegments (isSegments_segments base)]

/-- A name without its extension leads to the file once the extension is put after it. -/
theorem segments_resolve_append (hbase : IsRooted base.segments) (hname : IsName name)
    {extension : String} (hlong : IsName (name ++ extension)) :
    (Path.mk ((base.resolve ⟨name⟩).text ++ extension)).segments =
      base.segments ++ [.name (name ++ extension)] := by
  rw [resolve_name hbase hname, Typings.text_join_name_append _ hname _ hlong]
  change ((ofSegments base.segments).join ⟨name ++ extension⟩).segments = _
  rw [segments_join_name _ hlong, segments_ofSegments (isSegments_segments base)]

theorem segments_resolve_parent (hbase : base.segments = front ++ [.name name])
    (hfront : IsRooted front) : (base.resolve ⟨".."⟩).segments = front := by
  have hfold : (base.join ⟨".."⟩).segments.foldl cleanStep [] = front.foldl cleanStep [] := by
    rw [foldl_cleanStep_join base rfl, hbase, List.foldl_append]
    rfl
  rw [resolve, segments_clean, cleanSegments, hfold]
  exact cleanSegments_of_isRooted hfront

theorem join_parent_name (hname : IsName name) :
    (Path.mk "..").join ⟨name⟩ = ⟨"../" ++ name⟩ := by
  have hslash : ".." ++ "/" = "../" := by decide
  rw [join, if_neg (by simp [isAbsolute_name hname]), if_neg (by decide), hslash]

end WebComponents.Path

namespace WebComponents.Scaffold

open WebComponents.Path Text

variable {plan : Plan} {sourceDir : Path} {input : String}

/-! ## The files -/

theorem isName_componentTag (h : Tag.fault? (componentTag input) = none) :
    IsName (componentTag input) := by
  have hne := Tag.ne_empty_of_fault? h
  unfold componentTag at hne ⊢
  cases htag : (Path.mk input).fileName? with
  | none => simp [htag] at hne
  | some tag => exact isName_of_fileName? htag

theorem isRooted_componentDirectory (habsolute : sourceDir.isAbsolute = true)
    (hclean : sourceDir.clean.Same sourceDir) (input : String) :
    IsRooted (componentDirectory sourceDir input).segments := by
  obtain ⟨names, hnames⟩ := isRooted_segments_clean habsolute
  have hsource : sourceDir.segments = .root :: names.map .name :=
    Eq.trans (Eq.symm hclean) hnames
  refine ⟨names ++ [componentsDirectory] ++ (Path.mk input).names, ?_⟩
  rw [segments_componentDirectory, segments_componentsDirectory, hsource]
  simp

theorem lines_content (h : Tag.fault? plan.tag = none) (kind : FileKind) :
    lines (plan.content kind) = boilerplateLines plan.tag plan.withStylesheet kind ++ [""] := by
  have htag := Tag.newline_notMem_of_fault? h
  have hclass := Tag.newline_notMem_pascalCase h
  refine lines_join ?_
  cases kind with
  | component =>
      cases plan.withStylesheet <;>
        simp [boilerplateLines, componentLines, Typings.frameworkPackage, htag, hclass]
  | stylesheet => simp [boilerplateLines, stylesheetLines]
  | specTest =>
      simp [boilerplateLines, specTestLines, testingPackage, Typings.frameworkPackage, htag, hclass]
  | endToEndTest =>
      simp [boilerplateLines, endToEndTestLines, testingPackage, Typings.frameworkPackage, htag]

/-- The line in which a component declares its class. -/
def classLine (className : String) : String :=
  "export class " ++ className ++ " \x7b"

/-- The line in which a spec test imports the class. -/
def importLine (className tag : String) : String :=
  "import \x7b " ++ className ++ " \x7d from '../" ++ tag ++ "';"

/-- The line in which a component names its stylesheet. -/
def styleLine (tag : String) : String :=
  "  styleUrl: '" ++ tag ++ ".css',"

/-- The first letters tell the line from all others of the component. -/
theorem styleLine_mem_iff (tag : String) (withStylesheet : Bool) :
    styleLine tag ∈ componentLines tag withStylesheet ↔ withStylesheet = true := by
  cases withStylesheet with
  | true => simp [componentLines, styleLine]
  | false =>
      have hstart : ∀ line ∈ componentLines tag false, line.toList.take 4 ≠ "  st".toList := by
        simp [componentLines, Typings.frameworkPackage]
      refine iff_of_false (fun hmem => hstart _ hmem ?_) nofun
      simp [styleLine]

/-- What the files of a plan say of each other: which class is declared and imported, and which
paths lead from one file to another. -/
structure Plan.CrossReferences (plan : Plan) (className : String) : Prop where
  component_mem : .component ∈ plan.kinds
  declares : classLine className ∈ lines (plan.content .component)
  /-- The import leaves out the extension of the component. -/
  imports : .specTest ∈ plan.kinds →
    importLine className plan.tag ∈ lines (plan.content .specTest) ∧
      Path.Same
        ⟨((plan.path .specTest).directory.resolve ⟨"../" ++ plan.tag⟩).text ++ ".tsx"⟩
        (plan.path .component)
  styles_iff : styleLine plan.tag ∈ lines (plan.content .component) ↔ .stylesheet ∈ plan.kinds
  styles : .stylesheet ∈ plan.kinds →
    ((plan.path .component).directory.resolve ⟨plan.tag ++ ".css"⟩).Same (plan.path .stylesheet)

theorem segments_path_of_not_isTest {kind : FileKind} (hslash : '/' ∉ plan.tag.toList)
    (hkind : kind.isTest = false) :
    (plan.path kind).segments = plan.directory.segments ++ [.name (plan.fileName kind)] := by
  rw [segments_path hslash, hkind, if_neg Bool.false_ne_true, List.append_nil]

theorem resolve_import (hrooted : IsRooted plan.directory.segments) (htag : IsName plan.tag) :
    Path.Same ⟨((plan.path .specTest).directory.resolve ⟨"../" ++ plan.tag⟩).text ++ ".tsx"⟩
      (plan.path .component) := by
  have htest := segments_directory (segments_path htag.2.1 .specTest)
  have habove : ((plan.path .specTest).directory.resolve ⟨".."⟩).segments =
      plan.directory.segments := segments_resolve_parent htest hrooted
  have hplace : (plan.path .component).segments =
      plan.directory.segments ++ [.name (plan.fileName .component)] :=
    segments_path_of_not_isTest htag.2.1 rfl
  have hfile : plan.fileName .component = plan.tag ++ ".tsx" :=
    String.append_assoc.trans (congrArg _ (by decide))
  have hlong : IsName (plan.fileName .component) := isName_append_extension htag.2.1 .component
  rw [hfile] at hplace hlong
  rw [← join_parent_name htag, ← resolve_resolve]
  refine Eq.trans ?_ hplace.symm
  rw [← habove] at hrooted ⊢
  exact segments_resolve_append hrooted htag hlong

theorem resolve_styles (hrooted : IsRooted plan.directory.segments) (htag : IsName plan.tag) :
    ((plan.path .component).directory.resolve ⟨plan.tag ++ ".css"⟩).Same
      (plan.path .stylesheet) := by
  have hdirectory : (plan.path .component).directory.segments = plan.directory.segments :=
    segments_directory (segments_path_of_not_isTest htag.2.1 rfl)
  have hplace : (plan.path .stylesheet).segments =
      plan.directory.segments ++ [.name (plan.fileName .stylesheet)] :=
    segments_path_of_not_isTest htag.2.1 rfl
  have hfile : plan.fileName .stylesheet = plan.tag ++ ".css" :=
    String.append_assoc.trans (congrArg _ (by decide))
  have hlong : IsName (plan.fileName .stylesheet) := isName_append_extension htag.2.1 .stylesheet
  rw [hfile] at hplace hlong
  refine Eq.trans ?_ hplace.symm
  rw [← hdirectory] at hrooted ⊢
  exact segments_resolve_name hrooted hlong

theorem Plan.crossReferences (hcomponent : .component ∈ plan.kinds)
    (hrooted : IsRooted plan.directory.segments) (hname : IsName plan.tag)
    (htag : Tag.fault? plan.tag = none) :
    plan.CrossReferences (Naming.pascalCase plan.tag) where
  component_mem := hcomponent
  declares := by
    rw [lines_content htag]
    apply List.mem_append_left
    simp [boilerplateLines, componentLines, classLine]
  imports _ := by
    refine ⟨?_, resolve_import hrooted hname⟩
    rw [lines_content htag]
    apply List.mem_append_left
    simp [boilerplateLines, specTestLines, importLine]
  styles_iff := by
    have hlast : styleLine plan.tag ≠ "" := by simp [styleLine, ← String.toList_inj]
    rw [lines_content htag, List.mem_append, List.mem_singleton, or_iff_left hlast]
    exact (styleLine_mem_iff _ _).trans List.contains_iff_mem
  styles _ := resolve_styles hrooted hname

/-- **Cross references.**  For a clean source directory and a tag without a fault, the files of the
plan agree on the name of the class, and the paths by which they name each other lead to the planned
places. -/
theorem crossReferences_ofInput (habsolute : sourceDir.isAbsolute = true)
    (hclean : sourceDir.clean.Same sourceDir) (htag : Tag.fault? (componentTag input) = none)
    (requested : List FileKind) :
    let plan := Plan.ofInput sourceDir input requested
    plan.CrossReferences (Naming.pascalCase plan.tag) := by
  apply Plan.crossReferences
  · exact List.mem_cons_self
  · exact isRooted_componentDirectory habsolute hclean input
  · exact isName_componentTag htag
  · exact htag

/-- A component one directory deeper, with a stylesheet and a spec test. -/
theorem crossReferences_ofInput_card :
    let plan := Plan.ofInput ⟨"/p/src"⟩ "forms/my-card" [.stylesheet, .specTest]
    Tag.fault? (componentTag "forms/my-card") = none ∧ plan.CrossReferences "MyCard" ∧
      "import \x7b MyCard \x7d from '../my-card';" ∈ lines (plan.content .specTest) ∧
      plan.path .component = ⟨"/p/src/components/forms/my-card/my-card.tsx"⟩ := by
  intro plan
  have htag : Tag.fault? (componentTag "forms/my-card") = none := by decide
  have habsolute : (Path.mk "/p/src").isAbsolute = true := by decide
  have hreferences := crossReferences_ofInput habsolute (by decide) htag [.stylesheet, .specTest]
  have hclass : Naming.pascalCase plan.tag = "MyCard" := by decide
  simp only at hreferences
  rw [hclass] at hreferences
  exact ⟨htag, hreferences, (hreferences.imports (by decide)).1, by decide⟩

end WebComponents.Scaffold
