import Mathlib.Data.List.Perm.Basic
import WebComponents.Proofs.Json.Members
import WebComponents.Proofs.Json.Sound

/-!
# Documents that are arranged in another way

The members of an object that stands for a record may be given in any order and among others that
the record does not know.  An `Arrangement` says which trees are the same up to that: `ListOf` and
`MapOf` rearrange the parts and keep their order, `RecordOf` moves the members of an object around
and lets further sound ones in.  What the parts of a record may look like is told name by name.

`Respects` says that a reader does not see the difference: whatever it makes of a tree it makes of
every arrangement of it, as long as the levels of brackets suffice.  Like reading back it passes
from the parts to the whole, and for a record the changes of its fields must not disturb each other
(`respects_recordOf`).
-/

namespace WebComponents.Json

variable {α β γ : Type}

/-- Which trees are arranged from which. -/
abbrev Arrangement := Node → Node → Prop

namespace Arrangement

/-- The items of an array are arranged each by itself. -/
inductive ListOf (item : Arrangement) : Arrangement
  | same (node : Node) : ListOf item node node
  | array {items items' : List Node} {ending : Ending} (h : List.Forall₂ item items items') :
      ListOf item (.array items ending) (.array items' ending)

/-- The key of a member stays, and its value is arranged. -/
def Entry (value : Arrangement) (member member' : StringLiteral × Node) : Prop :=
  member'.1 = member.1 ∧ value member.2 member'.2

/-- The values of an object are arranged each by itself, and the members keep their order. -/
inductive MapOf (value : Arrangement) : Arrangement
  | same (node : Node) : MapOf value node node
  | object {members members' : List (StringLiteral × Node)} {ending : Ending}
      (h : List.Forall₂ (Entry value) members members') :
      MapOf value (.object members ending) (.object members' ending)

/-- The arrangement of the part with the given name; a part that is not listed stays as it is. -/
def partOf (parts : List (String × Arrangement)) (name : String) : Arrangement :=
  (parts.lookup name).getD Eq

/-- The key of a member stays, and its value is arranged as the part of that name. -/
def Part (parts : List (String × Arrangement)) (member member' : StringLiteral × Node) : Prop :=
  member'.1 = member.1 ∧ ∃ name, member.1.read = .ok name ∧ partOf parts name member.2 member'.2

/-- A sound member with none of the given names. -/
def IsFurther (names : List String) (member : StringLiteral × Node) : Prop :=
  (∃ name, member.1.read = .ok name ∧ name ∉ names) ∧ member.2.IsSound

/-- The items are arranged as the parts in whose places they stand. -/
inductive Places (parts : List (String × Arrangement)) : List String → List Node → List Node → Prop
  | nil {names : List String} : Places parts names [] []
  | cons {name : String} {names : List String} {item item' : Node} {items items' : List Node}
      (hitem : partOf parts name item item') (hitems : Places parts names items items') :
      Places parts (name :: names) (item :: items) (item' :: items')

/-- The parts of a record are arranged: in an array in their places, in an object in any order and
among further members. -/
inductive RecordOf (names : List String) (parts : List (String × Arrangement)) : Arrangement
  | same (node : Node) : RecordOf names parts node node
  | array {items items' : List Node} {ending : Ending} (h : Places parts names items items') :
      RecordOf names parts (.array items ending) (.array items' ending)
  | object {members moved further members' : List (StringLiteral × Node)} {ending : Ending}
      (hmoved : List.Forall₂ (Part parts) members moved)
      (hfurther : ∀ member ∈ further, IsFurther names member)
      (hperm : (moved ++ further).Perm members') :
      RecordOf names parts (.object members ending) (.object members' ending)

/-- Nothing happens to a member whose part stays as it is. -/
theorem Part.eq_of_nil {member member' : StringLiteral × Node} (h : Part [] member member') :
    member = member' := by
  obtain ⟨hkey, name, _, hvalue⟩ := h
  exact Prod.ext hkey.symm hvalue

/-- Nothing happens to items whose parts stay as they are. -/
theorem Places.eq_of_nil {names : List String} {items items' : List Node}
    (h : Places [] names items items') : items = items' := by
  induction h with
  | nil => rfl
  | cons hitem _ ih => exact congrArg₂ List.cons hitem ih

/-- The members may also keep their order. -/
theorem RecordOf.inOrder {names : List String} {parts : List (String × Arrangement)}
    {members members' : List (StringLiteral × Node)} {ending : Ending}
    (h : List.Forall₂ (Part parts) members members') :
    RecordOf names parts (.object members ending) (.object members' ending) :=
  .object h (List.forall_mem_nil _) (by rw [List.append_nil])

/-- Rearranging the parts of a record neither makes nor removes a `null`. -/
theorem RecordOf.eq_null_iff {names : List String} {parts : List (String × Arrangement)}
    {node node' : Node} (h : RecordOf names parts node node') :
    node = .scalar .null ↔ node' = .scalar .null := by
  cases h with
  | same => exact Iff.rfl
  | array => simp
  | object => simp

end Arrangement

open Arrangement

/-- The arrangements of a record: its fields, and other members anywhere. -/
abbrev Shape.Form (shape : Shape α) (parts : List (String × Arrangement)) : Arrangement :=
  RecordOf (shape.fields.map (·.name)) parts

/-- A reader makes of a tree what it makes of every arrangement of it, where enough levels are
left. -/
def Respects (read : Reader α) (form : Arrangement) : Prop :=
  ∀ ⦃levels node node' value⦄, form node node' → node'.depth < levels →
    read levels node = .ok value → read levels node' = .ok value

theorem respects_eq (read : Reader α) : Respects read Eq := by
  rintro levels node _ value rfl _ h
  exact h

theorem Respects.map {read : Reader α} {form : Arrangement} (h : Respects read form) (f : α → β) :
    Respects (fun levels node => f <$> read levels node) form := by
  intro levels node node' value hform hdepth hread
  obtain ⟨part, hpart, rfl⟩ := map_eq_ok_iff.mp hread
  exact map_eq_ok_iff.mpr ⟨part, h hform hdepth hpart, rfl⟩

/-- What is read part by part is read from other parts that stand for the same. -/
theorem forall₂_of_forall₂ {r : α → β → Prop} {s : α → γ → Prop} {t : β → γ → Prop}
    {as : List α} {bs : List β} {cs : List γ} (hr : List.Forall₂ r as bs)
    (hs : List.Forall₂ s as cs) (h : ∀ a, ∀ b ∈ bs, ∀ c, r a b → s a c → t b c) :
    List.Forall₂ t bs cs := by
  induction hr generalizing cs with
  | nil =>
      cases hs
      exact .nil
  | @cons a b as bs hab _ ih =>
      cases hs with
      | cons hac hs =>
          refine .cons (h a b List.mem_cons_self _ hab hac) (ih hs fun a' b' hb' => ?_)
          exact h a' b' (List.mem_cons_of_mem b hb')

/-! ## Lists, maps and optional values -/

theorem Respects.list {read : Reader α} {form : Arrangement} (h : Respects read form) :
    Respects (readList read) (ListOf form) := by
  intro levels node node' values hform hdepth hread
  cases hform with
  | same => exact hread
  | array hitems =>
      obtain ⟨inner, hinner, hread⟩ := bind_eq_ok_iff.mp hread
      obtain ⟨_, hvalues, hending⟩ := bind_eq_ok_iff.mp hread
      rw [readList, hinner, ok_bind]
      refine bind_eq_ok_iff.mpr ⟨_, ?_, hending⟩
      rw [mapM_eq_ok_iff] at hvalues ⊢
      refine forall₂_of_forall₂ hitems hvalues fun item item' hmem value hitem hvalue => ?_
      exact h hitem (depth_lt_of_mem_items hdepth hinner hmem) hvalue

theorem Respects.pairs {read : Reader α} {form : Arrangement} (h : Respects read form) :
    Respects (readPairs read) (MapOf form) := by
  intro levels node node' entries hform hdepth hread
  cases hform with
  | same => exact hread
  | object hmembers =>
      obtain ⟨inner, hinner, hread⟩ := bind_eq_ok_iff.mp hread
      obtain ⟨_, hentries, hending⟩ := bind_eq_ok_iff.mp hread
      rw [readPairs, hinner, ok_bind]
      refine bind_eq_ok_iff.mpr ⟨_, ?_, hending⟩
      rw [mapM_eq_ok_iff] at hentries ⊢
      refine forall₂_of_forall₂ hmembers hentries fun member member' hmem entry hmember hentry => ?_
      obtain ⟨name, hname, hentry⟩ := bind_eq_ok_iff.mp hentry
      obtain ⟨value, hvalue, hentry⟩ := bind_eq_ok_iff.mp hentry
      have hvalue' := h hmember.2 (depth_lt_of_mem_members hdepth hinner hmem) hvalue
      simp only [hmember.1, hname, ok_bind, hvalue']
      exact hentry

/-- A missing value is told by `null`, which must not become another tree or come from one. -/
theorem Respects.option {read : Reader α} {form : Arrangement} (h : Respects read form)
    (hnull : ∀ node node', form node node' → (node = .scalar .null ↔ node' = .scalar .null)) :
    Respects (readOption read) form := by
  intro levels node node' value? hform hdepth hread
  by_cases hnode : node = .scalar .null
  · -- both are missing
    rw [hnode] at hread
    rw [(hnull node node' hform).mp hnode]
    exact hread
  · have hnode' : node' ≠ .scalar .null := fun h => hnode ((hnull node node' hform).mpr h)
    rw [readOption.eq_2 _ _ _ hnode] at hread
    rw [readOption.eq_2 _ _ _ hnode']
    exact h.map some hform hdepth hread

/-! ## Records -/

theorem partOf_eq_of_not_mem {names : List String} {parts : List (String × Arrangement)}
    (hparts : parts.map (·.1) ⊆ names) {name : String} (h : name ∉ names) :
    partOf parts name = Eq := by
  have hnone : parts.lookup name = none := by
    rw [List.lookup_eq_none_iff]
    intro part hpart
    have hmem : part.1 ∈ names := hparts (List.mem_map_of_mem hpart)
    simp only [bne_iff_ne, ne_eq]
    rintro rfl
    exact h hmem
  rw [partOf, hnone, Option.getD_none]

variable {shape : Shape α} {parts : List (String × Arrangement)}

/-- A member does what it did, with its value arranged. -/
theorem readMember_of_part (hparts : parts.map (·.1) ⊆ shape.fields.map (·.name))
    (h : ∀ field ∈ shape.fields, Respects field.read (partOf parts field.name)) {levels : Nat}
    {member member' : StringLiteral × Node} (hpart : Part parts member member')
    (hdepth : member'.2.depth < levels) {change : Option (String × (α → α))}
    (hread : shape.readMember levels member = .ok change) :
    shape.readMember levels member' = .ok change := by
  obtain ⟨hkey, name, hname, hvalue⟩ := hpart
  cases change with
  | none =>
      -- no field has the name, so no part has it and the value stays
      obtain ⟨other, hother, hfind, hskip⟩ := Shape.readMember_eq_none_iff.mp hread
      cases hname.symm.trans hother
      have hnot : name ∉ shape.fields.map (·.name) := by
        rw [List.mem_map]
        rintro ⟨field, hfield, rfl⟩
        exact List.find?_eq_none.mp hfind field hfield (beq_self_eq_true field.name)
      rw [partOf_eq_of_not_mem hparts hnot] at hvalue
      exact Shape.readMember_eq_none_iff.mpr ⟨name, hkey ▸ hname, hfind, hvalue ▸ hskip⟩
  | some change =>
      obtain ⟨hother, field, hfind, hfield⟩ := Shape.readMember_eq_some_iff.mp hread
      cases hname.symm.trans hother
      have hbeq := List.find?_some hfind
      rw [← eq_of_beq hbeq] at hvalue
      have hvalue' := h field (List.mem_of_find?_eq_some hfind) hvalue hdepth hfield
      exact Shape.readMember_eq_some_iff.mpr ⟨hkey ▸ hname, field, hfind, hvalue'⟩

/-- A further member does nothing. -/
theorem readMember_of_isFurther {member : StringLiteral × Node}
    (h : IsFurther (shape.fields.map (·.name)) member) (levels : Nat) :
    shape.readMember levels member = .ok none := by
  obtain ⟨⟨name, hname, hnot⟩, hsound⟩ := h
  refine Shape.readMember_eq_none_iff.mpr ⟨name, hname, ?_, hsound.skip⟩
  rw [List.find?_eq_none]
  intro field hfield hbeq
  exact hnot (eq_of_beq hbeq ▸ List.mem_map_of_mem hfield)

theorem readItems_of_places {fields : List (Field α)} {levels : Nat} {ending : Ending}
    {items items' : List Node} (hplaces : Places parts (fields.map (·.name)) items items')
    (h : ∀ field ∈ fields, Respects field.read (partOf parts field.name))
    (hdepth : ∀ item ∈ items', item.depth < levels) {index : Nat} {record final : α}
    (hread : shape.readItems levels ending fields items index record = .ok final) :
    shape.readItems levels ending fields items' index record = .ok final := by
  induction fields generalizing items items' index record with
  | nil =>
      cases hplaces
      exact hread
  | cons field fields ih =>
      rw [List.map_cons] at hplaces
      rw [List.forall_mem_cons] at h
      cases hplaces with
      | nil => exact hread
      | cons hitem hitems =>
          rw [List.forall_mem_cons] at hdepth
          rw [Shape.readItems] at hread ⊢
          obtain ⟨change, hchange, hread⟩ := bind_eq_ok_iff.mp hread
          rw [h.1 hitem hdepth.1 hchange, ok_bind]
          exact ih hitems h.2 hdepth.2 hread

/-- The members of another arrangement make the same changes in some order. -/
theorem exists_changes_of_perm (hparts : parts.map (·.1) ⊆ shape.fields.map (·.name))
    (h : ∀ field ∈ shape.fields, Respects field.read (partOf parts field.name)) {levels : Nat}
    {members moved further members' : List (StringLiteral × Node)}
    {changes : List (Option (String × (α → α)))}
    (hmoved : List.Forall₂ (Part parts) members moved)
    (hfurther : ∀ member ∈ further, IsFurther (shape.fields.map (·.name)) member)
    (hperm : (moved ++ further).Perm members')
    (hdepth : ∀ member ∈ members', member.2.depth < levels)
    (hchanges : List.Forall₂ (fun member change => shape.readMember levels member = .ok change)
      members changes) :
    ∃ changes', List.Forall₂ (fun member change => shape.readMember levels member = .ok change)
        members' changes' ∧
      changes.reduceOption.Perm changes'.reduceOption := by
  have hmovedChanges : List.Forall₂
      (fun member change => shape.readMember levels member = .ok change) moved changes := by
    apply forall₂_of_forall₂ hmoved hchanges
    intro _ member hmember _ hpart hread
    have hmem : member ∈ members' := hperm.mem_iff.mp (List.mem_append_left further hmember)
    exact readMember_of_part hparts h hpart (hdepth member hmem) hread
  -- further members are passed over, so they add no change to the list
  have hfurtherChanges : List.Forall₂
      (fun member change => shape.readMember levels member = .ok change) further
      (further.map fun _ => none) := by
    rw [List.forall₂_map_right_iff, List.forall₂_same]
    exact fun member hmember => readMember_of_isFurther (hfurther member hmember) levels
  obtain ⟨changes', hchanges', hmixed⟩ := List.perm_comp_forall₂ hperm.symm
    (List.rel_append hmovedChanges hfurtherChanges)
  refine ⟨changes', hchanges', ?_⟩
  calc
    changes.reduceOption = (changes ++ further.map fun _ => none).reduceOption := by
      rw [List.reduceOption_append, List.map_const', List.reduceOption_replicate_none,
        List.append_nil]
    List.Perm _ changes'.reduceOption := hmixed.symm.filterMap id

/-- **Records.**  A record does not depend on the arrangement of its parts. -/
theorem respects_recordOf (hparts : parts.map (·.1) ⊆ shape.fields.map (·.name))
    (hind : shape.IsIndependent)
    (h : ∀ field ∈ shape.fields, Respects field.read (partOf parts field.name)) :
    Respects shape.read (shape.Form parts) := by
  intro levels node node' record hform hdepth hread
  cases hform with
  | same => exact hread
  | array hplaces =>
      obtain ⟨inner, hinner, hread⟩ := bind_eq_ok_iff.mp hread
      rw [Shape.read, hinner, ok_bind]
      exact readItems_of_places hplaces h
        (fun item hitem => depth_lt_of_mem_items hdepth hinner hitem) hread
  | object hmoved hfurther hperm =>
      rw [Shape.read_object_eq_ok_iff] at hread ⊢
      obtain ⟨inner, hinner, hending, changes, hchanges, hnodup, hrequired, rfl⟩ := hread
      obtain ⟨changes', hchanges', hsame⟩ := exists_changes_of_perm hparts h hmoved hfurther hperm
        (fun member hmember => depth_lt_of_mem_members hdepth hinner hmember) hchanges
      have hnames : (Shape.changedNames changes).Perm (Shape.changedNames changes') := hsame.map _
      refine ⟨inner, hinner, hending, changes', hchanges', hnames.nodup_iff.mp hnodup, ?_, ?_⟩
      · intro field hfield hfieldRequired
        exact hnames.mem_iff.mp (hrequired field hfield hfieldRequired)
      · exact Shape.applyChanges_eq_of_perm hind hchanges hnodup hsame shape.blank

end WebComponents.Json
