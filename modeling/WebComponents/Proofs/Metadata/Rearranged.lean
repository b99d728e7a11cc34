import WebComponents.Metadata.Decode
import WebComponents.Proofs.Json.Arrangement
import WebComponents.Proofs.Json.ReadBack

/-!
# Metadata does not depend on the order of members

Every record of the metadata may be written with its members in any order and among others that it
does not know, at every level of the document, and it stands for the same component
(`readText_component_of_rearranged`).  The references of a type keep their own order, because it
counts.

Records follow from `respects_recordOf`, one after the other from the inside out.  A reference is
read in another way: its kind is taken out of its members wherever it stands, and the others are
kept until the kind is known.  So what counts is which kinds there are among its members and which
paths among the kept ones (`readReference_object_eq_ok_iff`), and both only depend on the members up
to their order.
-/

namespace WebComponents.Metadata

open Json Json.Arrangement

/-! ## The members of a reference -/

/-- What a member of a reference is: the kind, or something to keep under its name. -/
def readReferenceMember (levels : Nat) (member : StringLiteral × Node) :
    Except Error (ReferenceKind ⊕ String × Node) := do
  let name ← member.1.read
  if name = "location" then
    let location ← readReferenceKind levels member.2
    return .inl location
  else
    member.2.keep levels
    return .inr (name, member.2)

theorem readReferenceMember_eq_inl_iff {levels : Nat} {member : StringLiteral × Node}
    {kind : ReferenceKind} :
    readReferenceMember levels member = .ok (.inl kind) ↔
      member.1.read = .ok "location" ∧ readReferenceKind levels member.2 = .ok kind := by
  constructor
  · intro h
    obtain ⟨name, hname, h⟩ := bind_eq_ok_iff.mp h
    split at h
    · rename_i hlocation
      obtain ⟨_, hkind, h⟩ := bind_eq_ok_iff.mp h
      cases h
      exact ⟨hlocation ▸ hname, hkind⟩
    · obtain ⟨_, _, h⟩ := bind_eq_ok_iff.mp h
      cases h
  · rintro ⟨hname, hkind⟩
    simp only [readReferenceMember, hname, ok_bind, if_pos, hkind]
    rfl

theorem readReferenceMember_eq_inr_iff {levels : Nat} {member : StringLiteral × Node}
    {other : String × Node} :
    readReferenceMember levels member = .ok (.inr other) ↔
      member.1.read = .ok other.1 ∧ other.1 ≠ "location" ∧ member.2.keep levels = .ok () ∧
        other.2 = member.2 := by
  constructor
  · intro h
    obtain ⟨name, hname, h⟩ := bind_eq_ok_iff.mp h
    split at h
    · obtain ⟨_, _, h⟩ := bind_eq_ok_iff.mp h
      cases h
    · rename_i hother
      obtain ⟨_, hkeep, h⟩ := bind_eq_ok_iff.mp h
      cases h
      exact ⟨hname, hother, hkeep, rfl⟩
  · obtain ⟨name, value⟩ := other
    rintro ⟨hname, hother, hkeep, rfl⟩
    simp only [readReferenceMember, hname, ok_bind, if_neg hother, hkeep]
    rfl

/-- The first member is the kind, if there was none before, or it is kept. -/
theorem readReferenceMembers_cons_eq_ok_iff {levels : Nat} {member : StringLiteral × Node}
    {members : List (StringLiteral × Node)} {location? : Option ReferenceKind}
    {others : List (String × Node)} {result : Option ReferenceKind × List (String × Node)} :
    readReferenceMembers levels (member :: members) location? others = .ok result ↔
      (∃ kind, readReferenceMember levels member = .ok (.inl kind) ∧ location? = none ∧
        readReferenceMembers levels members (some kind) others = .ok result) ∨
      ∃ other, readReferenceMember levels member = .ok (.inr other) ∧
        readReferenceMembers levels members location? (other :: others) = .ok result := by
  constructor
  · intro h
    rw [readReferenceMembers] at h
    obtain ⟨name, hname, h⟩ := bind_eq_ok_iff.mp h
    split at h
    · rename_i hlocation
      split at h
      · cases h
      · rename_i hnone
        obtain ⟨kind, hkind, h⟩ := bind_eq_ok_iff.mp h
        have hmember := readReferenceMember_eq_inl_iff.mpr ⟨hlocation ▸ hname, hkind⟩
        exact .inl ⟨kind, hmember, Option.not_isSome_iff_eq_none.mp hnone, h⟩
    · rename_i hother
      obtain ⟨_, hkeep, h⟩ := bind_eq_ok_iff.mp h
      have hmember : readReferenceMember levels member = .ok (.inr (name, member.2)) :=
        readReferenceMember_eq_inr_iff.mpr ⟨hname, hother, hkeep, rfl⟩
      exact .inr ⟨(name, member.2), hmember, h⟩
  · rintro (⟨kind, hmember, rfl, h⟩ | ⟨⟨name, value⟩, hmember, h⟩)
    · obtain ⟨hname, hkind⟩ := readReferenceMember_eq_inl_iff.mp hmember
      simp only [readReferenceMembers, hname, ok_bind, if_pos, hkind]
      exact h
    · obtain ⟨hname, hother, hkeep, rfl⟩ := readReferenceMember_eq_inr_iff.mp hmember
      simp only [readReferenceMembers, hname, ok_bind, if_neg hother, hkeep]
      exact h

/-- The kinds among the members. -/
def kinds (parts : List (ReferenceKind ⊕ String × Node)) : List ReferenceKind :=
  parts.filterMap Sum.getLeft?

/-- The members that are kept. -/
def kept (parts : List (ReferenceKind ⊕ String × Node)) : List (String × Node) :=
  parts.filterMap Sum.getRight?

/-- There is at most one kind, and all others are kept in order. -/
theorem readReferenceMembers_eq_ok_iff {levels : Nat} {members : List (StringLiteral × Node)}
    {location? location?' : Option ReferenceKind} {others others' : List (String × Node)} :
    readReferenceMembers levels members location? others = .ok (location?', others') ↔
      ∃ parts, List.Forall₂ (fun member part => readReferenceMember levels member = .ok part)
          members parts ∧
        location?'.toList = location?.toList ++ kinds parts ∧
        others' = others.reverse ++ kept parts := by
  -- the kind so far and what is kept so far change with each member
  induction members generalizing location? others with
  | nil =>
      simp only [readReferenceMembers, Except.ok.injEq, Prod.mk.injEq, List.forall₂_nil_left_iff,
        exists_eq_left, kinds, kept, List.filterMap_nil, List.append_nil]
      refine and_congr ?_ eq_comm
      cases location? <;> cases location?' <;> simp [eq_comm]
  | cons member members ih =>
      rw [readReferenceMembers_cons_eq_ok_iff]
      constructor
      · rintro (⟨kind, hmember, rfl, h⟩ | ⟨other, hmember, h⟩)
        · obtain ⟨parts, hparts, hkinds, hkept⟩ := ih.mp h
          exact ⟨.inl kind :: parts, .cons hmember hparts, hkinds, hkept⟩
        · obtain ⟨parts, hparts, hkinds, hkept⟩ := ih.mp h
          refine ⟨.inr other :: parts, .cons hmember hparts, hkinds, ?_⟩
          rw [hkept, List.reverse_cons, List.append_assoc]
          rfl
      · rintro ⟨_, hparts, hkinds, hkept⟩
        cases hparts with
        | @cons _ part _ parts hmember hparts =>
            cases part with
            | inl kind =>
                -- with a kind before this one there would be two
                have hnone : location? = none := by
                  cases location? with
                  | none => rfl
                  | some _ => cases location?' <;> simp [kinds] at hkinds
                subst hnone
                exact .inl ⟨kind, hmember, rfl, ih.mpr ⟨parts, hparts, hkinds, hkept⟩⟩
            | inr other =>
                refine .inr ⟨other, hmember, ih.mpr ⟨parts, hparts, hkinds, ?_⟩⟩
                rw [hkept, List.reverse_cons, List.append_assoc]
                rfl

/-! ## The path of an import -/

/-- The values that are kept under the name `path`. -/
def paths (others : List (String × Node)) : List Node :=
  (others.filter fun other => other.1 = "path").map (·.2)

theorem paths_cons_of_ne {other : String × Node} (h : other.1 ≠ "path")
    (others : List (String × Node)) : paths (other :: others) = paths others := by
  rw [paths, List.filter_cons_of_neg (by simpa using h)]
  rfl

theorem paths_cons_path (path : Node) (others : List (String × Node)) :
    paths (("path", path) :: others) = path :: paths others :=
  rfl

/-- After a path no other one may follow. -/
theorem importSpecifier_some_eq_ok_iff {levels : Nat} {others : List (String × Node)}
    {known specifier : String} :
    importSpecifier levels others (some known) = .ok specifier ↔
      paths others = [] ∧ known = specifier := by
  induction others with
  | nil => simp [importSpecifier, paths]
  | cons other others ih =>
      obtain ⟨name, value⟩ := other
      rw [importSpecifier]
      by_cases hpath : name = "path"
      · subst hpath
        simp [paths_cons_path]
      · rw [if_neg hpath, paths_cons_of_ne hpath]
        exact ih

/-- There is exactly one path, and it is a text. -/
theorem importSpecifier_none_eq_ok_iff {levels : Nat} {others : List (String × Node)}
    {specifier : String} :
    importSpecifier levels others none = .ok specifier ↔
      ∃ path, paths others = [path] ∧ readString "a string" levels path = .ok specifier := by
  induction others with
  | nil => simp [importSpecifier, paths]
  | cons other others ih =>
      obtain ⟨name, value⟩ := other
      rw [importSpecifier]
      by_cases hpath : name = "path"
      · subst hpath
        rw [if_pos rfl, Option.isSome_none, if_neg Bool.false_ne_true, bind_eq_ok_iff,
          paths_cons_path]
        constructor
        · rintro ⟨text, htext, h⟩
          obtain ⟨hpaths, rfl⟩ := importSpecifier_some_eq_ok_iff.mp h
          exact ⟨value, by rw [hpaths], htext⟩
        · rintro ⟨path, hpaths, htext⟩
          obtain ⟨rfl, hnone⟩ := List.cons_eq_cons.mp hpaths
          exact ⟨specifier, htext, importSpecifier_some_eq_ok_iff.mpr ⟨hnone, rfl⟩⟩
      · rw [if_neg hpath, paths_cons_of_ne hpath]
        exact ih

/-- The reference of the given kind, with the members that were kept. -/
def referenceOfMembers (levels : Nat) :
    ReferenceKind → List (String × Node) → Except Error Reference
  | .everywhere, _ => .ok .everywhere
  | .here, _ => .ok .here
  | .imported, others => .imported <$> importSpecifier levels others none

/-- Of the kept members only the paths count, in any order. -/
theorem referenceOfMembers_of_perm {levels : Nat} {kind : ReferenceKind}
    {others others' : List (String × Node)} {reference : Reference}
    (hperm : (paths others').Perm (paths others))
    (h : referenceOfMembers levels kind others = .ok reference) :
    referenceOfMembers levels kind others' = .ok reference := by
  cases kind with
  | everywhere => exact h
  | here => exact h
  | imported =>
      obtain ⟨specifier, hspecifier, rfl⟩ := map_eq_ok_iff.mp h
      obtain ⟨path, hpaths, htext⟩ := importSpecifier_none_eq_ok_iff.mp hspecifier
      rw [hpaths, List.perm_singleton] at hperm
      refine map_eq_ok_iff.mpr ⟨specifier, ?_, rfl⟩
      exact importSpecifier_none_eq_ok_iff.mpr ⟨path, hperm, htext⟩

/-- An object is read as the reference of the one kind among its members. -/
theorem readReference_object_eq_ok_iff {levels : Nat} {members : List (StringLiteral × Node)}
    {ending : Ending} {reference : Reference} :
    readReference levels (.object members ending) = .ok reference ↔
      ∃ inner, enter levels = .ok inner ∧ ending.read = .ok () ∧
        ∃ parts, List.Forall₂ (fun member part => readReferenceMember inner member = .ok part)
            members parts ∧
          ∃ kind, kinds parts = [kind] ∧
            referenceOfMembers inner kind (kept parts) = .ok reference := by
  constructor
  · intro h
    obtain ⟨inner, hinner, h⟩ := bind_eq_ok_iff.mp h
    obtain ⟨⟨location?, others⟩, hmembers, h⟩ := bind_eq_ok_iff.mp h
    obtain ⟨_, hending, h⟩ := bind_eq_ok_iff.mp h
    obtain ⟨parts, hparts, hkinds, rfl⟩ := readReferenceMembers_eq_ok_iff.mp hmembers
    cases location? with
    | none => cases h
    | some kind =>
        refine ⟨inner, hinner, hending, parts, hparts, kind, hkinds.symm, ?_⟩
        cases kind <;> exact h
  · rintro ⟨inner, hinner, hending, parts, hparts, kind, hkinds, h⟩
    have hmembers : readReferenceMembers inner members none [] = .ok (some kind, kept parts) :=
      readReferenceMembers_eq_ok_iff.mpr ⟨parts, hparts, hkinds.symm, rfl⟩
    simp only [readReference, hinner, ok_bind, hmembers, hending]
    cases kind <;> exact h

/-! ## References -/

theorem kinds_append (parts more : List (ReferenceKind ⊕ String × Node)) :
    kinds (parts ++ more) = kinds parts ++ kinds more :=
  List.filterMap_append

theorem paths_kept_append (parts more : List (ReferenceKind ⊕ String × Node)) :
    paths (kept (parts ++ more)) = paths (kept parts) ++ paths (kept more) := by
  simp [paths, kept]

/-- A reference in another arrangement: its members in any order, and others that are neither its
kind nor its path. -/
abbrev ReferenceForm : Arrangement :=
  RecordOf ["location", "path"] []

/-- Further members are kept, and none of them is a kind or a path. -/
theorem exists_parts_of_isFurther {levels : Nat} {further : List (StringLiteral × Node)}
    (h : ∀ member ∈ further, IsFurther ["location", "path"] member)
    (hdepth : ∀ member ∈ further, member.2.depth < levels) :
    ∃ parts, List.Forall₂ (fun member part => readReferenceMember levels member = .ok part)
        further parts ∧ kinds parts = [] ∧ paths (kept parts) = [] := by
  induction further with
  | nil => exact ⟨[], .nil, rfl, rfl⟩
  | cons member further ih =>
      rw [List.forall_mem_cons] at h hdepth
      obtain ⟨parts, hparts, hkinds, hpaths⟩ := ih h.2 hdepth.2
      obtain ⟨⟨name, hname, hnot⟩, hsound⟩ := h.1
      simp only [List.mem_cons, List.not_mem_nil, or_false, not_or] at hnot
      refine ⟨.inr (name, member.2) :: parts, .cons ?_ hparts, hkinds, ?_⟩
      · exact readReferenceMember_eq_inr_iff.mpr ⟨hname, hnot.1, hsound.keep hdepth.1, rfl⟩
      · exact (paths_cons_of_ne hnot.2 (kept parts)).trans hpaths

theorem respects_reference : Respects readReference ReferenceForm := by
  intro levels node node' reference hform hdepth hread
  cases hform with
  | same => exact hread
  | array hplaces =>
      rw [← hplaces.eq_of_nil]
      exact hread
  | @object members moved further members' ending hmoved hfurther hperm =>
      rw [readReference_object_eq_ok_iff] at hread ⊢
      obtain ⟨inner, hinner, hending, parts, hparts, kind, hkinds, hreference⟩ := hread
      -- neither the kind nor what is kept is a record, so no member changes by itself
      have hsame : members = moved := by
        rw [← List.forall₂_eq_eq_eq]
        exact hmoved.imp fun _ _ hpart => hpart.eq_of_nil
      have hdepths : ∀ member ∈ further, member.2.depth < inner := by
        intro member hmember
        have hmem : member ∈ members' := hperm.mem_iff.mp (List.mem_append_right moved hmember)
        exact depth_lt_of_mem_members hdepth hinner hmem
      obtain ⟨more, hmore, hmoreKinds, hmorePaths⟩ := exists_parts_of_isFurther hfurther hdepths
      obtain ⟨parts', hparts', hmixed⟩ :=
        List.perm_comp_forall₂ hperm.symm (List.rel_append (hsame ▸ hparts) hmore)
      have hkinds' : (kinds parts').Perm (kinds (parts ++ more)) := hmixed.filterMap _
      have hpaths' : (paths (kept parts')).Perm (paths (kept (parts ++ more))) :=
        ((hmixed.filterMap _).filter _).map _
      rw [kinds_append, hmoreKinds, List.append_nil, hkinds, List.perm_singleton] at hkinds'
      rw [paths_kept_append, hmorePaths, List.append_nil] at hpaths'
      exact ⟨inner, hinner, hending, parts', hparts', kind, hkinds',
        referenceOfMembers_of_perm hpaths' hreference⟩

/-! ## Records -/

/-- The docs in another arrangement, tags in their order. -/
abbrev DocsForm : Arrangement :=
  docsShape.Form [("tags", ListOf (docTagShape.Form []))]

/-- A type in another arrangement, references in their order. -/
abbrev ValueTypeForm : Arrangement :=
  valueTypeShape.Form [("references", MapOf ReferenceForm)]

/-- The type of a method in another arrangement, parameters and references in their order. -/
abbrev MethodTypeForm : Arrangement :=
  methodTypeShape.Form [("parameters", ListOf DocsForm), ("references", MapOf ReferenceForm)]

/-- A property in another arrangement. -/
abbrev PropertyForm : Arrangement :=
  propertyShape.Form [("complexType", ValueTypeForm), ("docs", DocsForm)]

/-- An event in another arrangement. -/
abbrev EventForm : Arrangement :=
  eventShape.Form [("complexType", ValueTypeForm), ("docs", DocsForm)]

/-- A method in another arrangement. -/
abbrev MethodForm : Arrangement :=
  methodShape.Form [("complexType", MethodTypeForm), ("docs", DocsForm)]

/-- A component in another arrangement, the members of each kind in their order. -/
abbrev ComponentForm : Arrangement :=
  componentShape.Form [("properties", ListOf PropertyForm),
    ("virtualProperties", ListOf (virtualPropertyShape.Form [])), ("events", ListOf EventForm),
    ("methods", ListOf MethodForm)]

/-- The records that metadata is made of, from the inside out. -/
inductive RecordKind where
  | docTag | docs | valueType | methodType | property | virtualProperty | event | method | component

/-- What a record of the kind describes. -/
abbrev RecordKind.Described : RecordKind → Type
  | .docTag => DocTag
  | .docs => Docs
  | .valueType => ValueType
  | .methodType => MethodType
  | .property => Property
  | .virtualProperty => VirtualProperty
  | .event => Event
  | .method => Method
  | .component => Component

/-- How a record of the kind is read. -/
abbrev RecordKind.shape : (kind : RecordKind) → Shape kind.Described
  | .docTag => docTagShape
  | .docs => docsShape
  | .valueType => valueTypeShape
  | .methodType => methodTypeShape
  | .property => propertyShape
  | .virtualProperty => virtualPropertyShape
  | .event => eventShape
  | .method => methodShape
  | .component => componentShape

/-- Each field of a record sets a part of its own, so the order of the changes does not matter. -/
theorem isIndependent_shape (kind : RecordKind) : kind.shape.IsIndependent := by
  cases kind
  all_goals
    simp only [Shape.IsIndependent, docTagShape, docsShape, valueTypeShape, methodTypeShape,
      propertyShape, virtualPropertyShape, eventShape, methodShape, componentShape,
      List.pairwise_cons, List.forall_mem_cons, List.not_mem_nil, false_implies, implies_true,
      and_true, List.Pairwise.nil]
    and_intros
  -- what is left are the pairs of fields
  all_goals exact Field.commutes_of_set rfl rfl fun _ _ _ => rfl

/-! A record is read the same if its parts are. -/

theorem respects_docTag : Respects docTagShape.read (docTagShape.Form []) :=
  respects_recordOf (List.nil_subset _) (isIndependent_shape .docTag)
    fun field _ => respects_eq field.read

theorem respects_docs : Respects docsShape.read DocsForm := by
  refine respects_recordOf (by decide) (isIndependent_shape .docs) ?_
  simp only [docsShape, List.forall_mem_cons, List.not_mem_nil, false_implies, implies_true,
    and_true]
  exact ⟨respects_eq _, respects_docTag.list.map _⟩

theorem respects_references : Respects readReferences (MapOf ReferenceForm) :=
  respects_reference.pairs.map References.ofPairs

theorem respects_docs? : Respects (readOption docsShape.read) DocsForm :=
  respects_docs.option fun _ _ h => h.eq_null_iff

theorem respects_valueType : Respects valueTypeShape.read ValueTypeForm := by
  refine respects_recordOf (by decide) (isIndependent_shape .valueType) ?_
  simp only [valueTypeShape, List.forall_mem_cons, List.not_mem_nil, false_implies, implies_true,
    and_true]
  exact ⟨respects_eq _, respects_eq _, respects_references.map _⟩

theorem respects_methodType : Respects methodTypeShape.read MethodTypeForm := by
  refine respects_recordOf (by decide) (isIndependent_shape .methodType) ?_
  simp only [methodTypeShape, List.forall_mem_cons, List.not_mem_nil, false_implies, implies_true,
    and_true]
  exact ⟨respects_eq _, respects_docs.list.map _, respects_eq _, respects_references.map _⟩

theorem respects_property : Respects propertyShape.read PropertyForm := by
  refine respects_recordOf (by decide) (isIndependent_shape .property) ?_
  simp only [propertyShape, List.forall_mem_cons, List.not_mem_nil, false_implies, implies_true,
    and_true]
  exact ⟨respects_eq _, respects_valueType.map _, respects_docs?.map _, respects_eq _,
    respects_eq _, respects_eq _⟩

theorem respects_virtualProperty :
    Respects virtualPropertyShape.read (virtualPropertyShape.Form []) :=
  respects_recordOf (List.nil_subset _) (isIndependent_shape .virtualProperty)
    fun field _ => respects_eq field.read

theorem respects_event : Respects eventShape.read EventForm := by
  refine respects_recordOf (by decide) (isIndependent_shape .event) ?_
  simp only [eventShape, List.forall_mem_cons, List.not_mem_nil, false_implies, implies_true,
    and_true]
  exact ⟨respects_eq _, respects_eq _, respects_eq _, respects_eq _, respects_eq _, respects_eq _,
    respects_valueType.map _, respects_docs?.map _⟩

theorem respects_method : Respects methodShape.read MethodForm := by
  refine respects_recordOf (by decide) (isIndependent_shape .method) ?_
  simp only [methodShape, List.forall_mem_cons, List.not_mem_nil, false_implies, implies_true,
    and_true]
  exact ⟨respects_eq _, respects_eq _, respects_methodType.map _, respects_docs?.map _⟩

theorem respects_component : Respects componentShape.read ComponentForm := by
  refine respects_recordOf (by decide) (isIndependent_shape .component) ?_
  simp only [componentShape, List.forall_mem_cons, List.not_mem_nil, false_implies, implies_true,
    and_true]
  exact ⟨respects_eq _, respects_eq _, respects_property.list.map _,
    respects_virtualProperty.list.map _, respects_event.list.map _, respects_method.list.map _⟩

/-! ## Documents -/

/-- A document that describes a component describes the same one when the members of its records
are rearranged and others are added. -/
theorem readText_component_of_rearranged {text text' : String} {component : Component}
    (hform : ComponentForm (Document.ofText text).root (Document.ofText text').root)
    (hwhole : (Document.ofText text').trailing = false)
    (hdepth : (Document.ofText text').root.depth < maxLevels)
    (h : readText componentShape.read text = .ok component) :
    readText componentShape.read text' = .ok component := by
  obtain ⟨value, hvalue, hend⟩ := bind_eq_ok_iff.mp h
  have hcomponent : value = component := by
    split at hend
    · cases hend
    · exact Except.ok.inj hend
  subst hcomponent
  have hvalue' := respects_component hform hdepth hvalue
  simp only [readText, hvalue', ok_bind, hwhole]
  rfl

/-- The path of an import may come before its kind. -/
theorem readText_component_path_first :
    readText componentShape.read (Value.object [
        ("since", .array [.null]),
        ("properties", .array [.object [
          ("complexType", .object [
            ("references", .object [
              ("Foo", .object [
                ("note", .boolean true), ("path", .string "./foo"), ("location", .string "import")])
            ])])]]),
        ("tagName", .string "x-a")]).compact =
      .ok { Component.ofTag "x-a" ⟨""⟩ with
        properties := [.ofType "" ⟨"", "", .ofPairs [("Foo", .imported "./foo")]⟩] } := by
  apply @readText_component_of_rearranged (Value.object [
    ("tagName", .string "x-a"),
    ("properties", .array [.object [
      ("complexType", .object [
        ("references", .object [
          ("Foo", .object [
            ("location", .string "import"), ("path", .string "./foo")])])])]])]).compact
  · rw [ofText_compact, ofText_compact]
    -- the members of the component and of the reference come last to first, after a further one
    refine @RecordOf.object _ _ _ [_, _] [_] _ _ ?_ ?_ (List.reverse_perm _).symm
    · refine .cons ⟨rfl, "tagName", read_ofText _, rfl⟩
        (.cons ⟨rfl, "properties", read_ofText _, .array (.cons ?_ .nil)⟩ .nil)
      refine .inOrder (.cons ⟨rfl, "complexType", read_ofText _, .inOrder ?_⟩ .nil)
      refine .cons ⟨rfl, "references", read_ofText _, .object (.cons ⟨rfl, ?_⟩ .nil)⟩ .nil
      refine @RecordOf.object _ _ _ [_, _] [_] _ _ ?_ ?_ (List.reverse_perm _).symm
      · exact .cons ⟨rfl, "location", read_ofText _, rfl⟩
          (.cons ⟨rfl, "path", read_ofText _, rfl⟩ .nil)
      · exact List.forall_mem_singleton.mpr
          ⟨⟨"note", read_ofText _, by decide⟩, .scalar trivial⟩
    · refine List.forall_mem_singleton.mpr ⟨⟨"since", read_ofText _, by decide⟩, ?_⟩
      exact .array (List.forall_mem_singleton.mpr (.scalar trivial))
  · rw [ofText_compact]
  · rw [ofText_compact]
    decide
  · rw [readText, ofText_compact]
    rfl

end WebComponents.Metadata
