import Mathlib.Data.List.Nodup
import Mathlib.Data.List.Pairwise
import Mathlib.Data.List.ReduceOption
import WebComponents.Json.Reader
import WebComponents.Proofs.Outcome

/-!
# What the members of an object do to a record

A record is read from the members of an object one after another.  Each member is looked at by
itself (`Shape.readMember`): it is passed over, or it changes the record under the name of a field.
The object is read exactly if every member is, no name comes twice and no required one is missing,
and the record is the blank one with all changes made in order (`read_object_eq_ok_iff`).

So an order of the members does not matter to which objects are read, and it matters to the record
only as far as the changes of different fields disturb each other (`Shape.IsIndependent`).
-/

namespace WebComponents.Json

variable {α β γ : Type}

/-- Two fields change a record to the same one in either order. -/
def Field.Commutes (field other : Field α) : Prop :=
  ∀ ⦃levels levels' node node' change change'⦄, field.read levels node = .ok change →
    other.read levels' node' = .ok change' →
    ∀ record, change (change' record) = change' (change record)

theorem Field.Commutes.symm {field other : Field α} (h : field.Commutes other) :
    other.Commutes field :=
  fun _ _ _ _ _ _ hchange hchange' record => (h hchange' hchange record).symm

/-- Fields that set a part of the record each commute if their parts do. -/
theorem Field.commutes_of_set {field other : Field α} {read : Reader β} {read' : Reader γ}
    {set : β → α → α} {set' : γ → α → α}
    (hfield : field.read = fun levels node => set <$> read levels node)
    (hother : other.read = fun levels node => set' <$> read' levels node)
    (h : ∀ value value' record, set value (set' value' record) = set' value' (set value record)) :
    field.Commutes other := by
  intro levels levels' node node' change change' hchange hchange' record
  rw [hfield] at hchange
  rw [hother] at hchange'
  obtain ⟨value, _, rfl⟩ := map_eq_ok_iff.mp hchange
  obtain ⟨value', _, rfl⟩ := map_eq_ok_iff.mp hchange'
  exact h value value' record

namespace Shape

/-! ## One member -/

/-- What a member does: the change of a record under the name of a field, or nothing. -/
def readMember (shape : Shape α) (levels : Nat) (member : StringLiteral × Node) :
    Except Error (Option (String × (α → α))) := do
  let name ← member.1.read
  match shape.fields.find? (·.name == name) with
  | none => do
    member.2.skip
    return none
  | some field => return some (name, ← field.read levels member.2)

theorem readMember_eq_none_iff {shape : Shape α} {levels : Nat} {member : StringLiteral × Node} :
    shape.readMember levels member = .ok none ↔
      ∃ name, member.1.read = .ok name ∧ shape.fields.find? (·.name == name) = none ∧
        member.2.skip = .ok () := by
  constructor
  · intro h
    obtain ⟨name, hname, h⟩ := bind_eq_ok_iff.mp h
    split at h
    · rename_i hfind
      obtain ⟨_, hskip, _⟩ := bind_eq_ok_iff.mp h
      exact ⟨name, hname, hfind, hskip⟩
    · obtain ⟨_, _, h⟩ := bind_eq_ok_iff.mp h
      cases h
  · rintro ⟨name, hname, hfind, hskip⟩
    simp only [readMember, hname, ok_bind, hfind, hskip]
    rfl

theorem readMember_eq_some_iff {shape : Shape α} {levels : Nat} {member : StringLiteral × Node}
    {name : String} {change : α → α} :
    shape.readMember levels member = .ok (some (name, change)) ↔
      member.1.read = .ok name ∧ ∃ field, shape.fields.find? (·.name == name) = some field ∧
        field.read levels member.2 = .ok change := by
  constructor
  · intro h
    obtain ⟨key, hname, h⟩ := bind_eq_ok_iff.mp h
    split at h
    · obtain ⟨_, _, h⟩ := bind_eq_ok_iff.mp h
      cases h
    · rename_i field hfind
      obtain ⟨_, hread, h⟩ := bind_eq_ok_iff.mp h
      cases h
      exact ⟨hname, field, hfind, hread⟩
  · rintro ⟨hname, field, hfind, hread⟩
    simp only [readMember, hname, ok_bind, hfind, hread]
    rfl

/-! ## All members -/

/-- The names under which the changes are made. -/
def changedNames (changes : List (Option (String × (α → α)))) : List String :=
  changes.reduceOption.map (·.1)

/-- The record after all changes, in order. -/
def applyChanges (changes : List (Option (String × (α → α)))) (record : α) : α :=
  changes.reduceOption.foldl (fun record change => change.2 record) record

/-- The first member changes nothing, or it changes the record under a name that is new. -/
theorem readMembers_cons_eq_ok_iff {shape : Shape α} {levels : Nat}
    {member : StringLiteral × Node} {members : List (StringLiteral × Node)} {seen : List String}
    {record : α} {result : List String × α} :
    shape.readMembers levels (member :: members) seen record = .ok result ↔
      (shape.readMember levels member = .ok none ∧
        shape.readMembers levels members seen record = .ok result) ∨
      ∃ name change, shape.readMember levels member = .ok (some (name, change)) ∧ name ∉ seen ∧
        shape.readMembers levels members (name :: seen) (change record) = .ok result := by
  constructor
  · intro h
    rw [readMembers] at h
    obtain ⟨name, hname, h⟩ := bind_eq_ok_iff.mp h
    split at h
    · rename_i hfind
      obtain ⟨_, hskip, h⟩ := bind_eq_ok_iff.mp h
      exact .inl ⟨readMember_eq_none_iff.mpr ⟨name, hname, hfind, hskip⟩, h⟩
    · rename_i field hfind
      split at h
      · cases h
      · rename_i hnew
        obtain ⟨change, hread, h⟩ := bind_eq_ok_iff.mp h
        refine .inr ⟨name, change, ?_, by simpa using hnew, h⟩
        exact readMember_eq_some_iff.mpr ⟨hname, field, hfind, hread⟩
  · rintro (⟨hmember, h⟩ | ⟨name, change, hmember, hnew, h⟩)
    · obtain ⟨name, hname, hfind, hskip⟩ := readMember_eq_none_iff.mp hmember
      simp only [readMembers, hname, ok_bind, hfind, hskip]
      exact h
    · obtain ⟨hname, field, hfind, hread⟩ := readMember_eq_some_iff.mp hmember
      have hcontains : seen.contains name = false := by simpa using hnew
      simp only [readMembers, hname, ok_bind, hfind, hcontains, hread]
      exact h

theorem readMembers_eq_ok_iff {shape : Shape α} {levels : Nat}
    {members : List (StringLiteral × Node)} {seen names : List String} {record final : α}
    (hseen : seen.Nodup) :
    shape.readMembers levels members seen record = .ok (names, final) ↔
      ∃ changes, List.Forall₂ (fun member change => shape.readMember levels member = .ok change)
          members changes ∧
        names = (changedNames changes).reverse ++ seen ∧ names.Nodup ∧
        final = applyChanges changes record := by
  -- the names seen so far and the record so far change with each member
  induction members generalizing seen record with
  | nil =>
      simp only [readMembers, Except.ok.injEq, Prod.mk.injEq, List.forall₂_nil_left_iff]
      constructor
      · rintro ⟨rfl, rfl⟩
        exact ⟨[], rfl, rfl, hseen, rfl⟩
      · rintro ⟨_, rfl, hnames, _, hfinal⟩
        exact ⟨hnames.symm, hfinal.symm⟩
  | cons member members ih =>
      rw [readMembers_cons_eq_ok_iff]
      constructor
      · rintro (⟨hmember, h⟩ | ⟨name, change, hmember, hnew, h⟩)
        · obtain ⟨changes, hchanges, h⟩ := (ih hseen).mp h
          exact ⟨none :: changes, .cons hmember hchanges, h⟩
        · obtain ⟨changes, hchanges, hnames, h⟩ := (ih (List.nodup_cons.mpr ⟨hnew, hseen⟩)).mp h
          refine ⟨some (name, change) :: changes, .cons hmember hchanges, ?_, h⟩
          simp [hnames, changedNames]
      · rintro ⟨_, h, hnames, hnodup, hfinal⟩
        cases h with
        | @cons _ change _ changes hmember hchanges =>
            cases change with
            | none =>
                exact .inl ⟨hmember, (ih hseen).mpr ⟨changes, hchanges, hnames, hnodup, hfinal⟩⟩
            | some change =>
                have hsplit : names = (changedNames changes).reverse ++ change.1 :: seen := by
                  rw [hnames]
                  simp [changedNames]
                have hnew : (change.1 :: seen).Nodup := by
                  rw [hsplit] at hnodup
                  exact (List.nodup_append.mp hnodup).2.1
                have hlater := (ih hnew).mpr ⟨changes, hchanges, hsplit, hnodup, hfinal⟩
                exact .inr ⟨change.1, change.2, hmember, (List.nodup_cons.mp hnew).1, hlater⟩

theorem checkRequired_eq_ok_iff {shape : Shape α} {seen : List String} :
    shape.checkRequired seen = .ok () ↔
      ∀ field ∈ shape.fields, field.required = true → field.name ∈ seen := by
  have hnone : shape.checkRequired seen = .ok () ↔
      shape.fields.find? (fun field => field.required && !seen.contains field.name) = none := by
    rw [checkRequired]
    split <;> simp_all
  rw [hnone, List.find?_eq_none]
  simp

/-- An object is read as the record that its changes make, if no name comes twice and every required
one comes. -/
theorem read_object_eq_ok_iff {shape : Shape α} {levels : Nat}
    {members : List (StringLiteral × Node)} {ending : Ending} {record : α} :
    shape.read levels (.object members ending) = .ok record ↔
      ∃ inner, enter levels = .ok inner ∧ ending.read = .ok () ∧
        ∃ changes, List.Forall₂ (fun member change => shape.readMember inner member = .ok change)
            members changes ∧
          (changedNames changes).Nodup ∧
          (∀ field ∈ shape.fields, field.required = true → field.name ∈ changedNames changes) ∧
          record = applyChanges changes shape.blank := by
  constructor
  · intro h
    obtain ⟨inner, hinner, h⟩ := bind_eq_ok_iff.mp h
    obtain ⟨⟨seen, final⟩, hmembers, h⟩ := bind_eq_ok_iff.mp h
    obtain ⟨_, hending, h⟩ := bind_eq_ok_iff.mp h
    obtain ⟨_, hrequired, h⟩ := bind_eq_ok_iff.mp h
    cases h
    obtain ⟨changes, hchanges, rfl, hnodup, hfinal⟩ :=
      (readMembers_eq_ok_iff List.nodup_nil).mp hmembers
    rw [List.append_nil, List.nodup_reverse] at hnodup
    refine ⟨inner, hinner, hending, changes, hchanges, hnodup, ?_, hfinal⟩
    simpa using checkRequired_eq_ok_iff.mp hrequired
  · rintro ⟨inner, hinner, hending, changes, hchanges, hnodup, hrequired, rfl⟩
    have hmembers : shape.readMembers inner members [] shape.blank =
        .ok ((changedNames changes).reverse ++ [], applyChanges changes shape.blank) := by
      apply (readMembers_eq_ok_iff List.nodup_nil).mpr
      refine ⟨changes, hchanges, rfl, ?_, rfl⟩
      rwa [List.append_nil, List.nodup_reverse]
    have hseen : shape.checkRequired ((changedNames changes).reverse ++ []) = .ok () := by
      apply checkRequired_eq_ok_iff.mpr
      simpa using hrequired
    simp only [read, hinner, ok_bind, hmembers, hending, hseen]
    rfl

/-! ## Changes in another order -/

/-- Any two fields change a record to the same one in either order. -/
def IsIndependent (shape : Shape α) : Prop :=
  shape.fields.Pairwise Field.Commutes

/-- A change that a member makes is one of the field with its name. -/
theorem exists_field_of_mem {shape : Shape α} {levels : Nat} {members : List (StringLiteral × Node)}
    {changes : List (Option (String × (α → α)))}
    (hchanges : List.Forall₂ (fun member change => shape.readMember levels member = .ok change)
      members changes) {change : String × (α → α)} (hmem : change ∈ changes.reduceOption) :
    ∃ field ∈ shape.fields, field.name = change.1 ∧
      ∃ node, field.read levels node = .ok change.2 := by
  have hsome : some change ∈ changes := List.reduceOption_mem_iff.mp hmem
  clear hmem
  induction hchanges with
  | nil => cases hsome
  | @cons member _ _ _ hmember _ ih =>
      cases hsome with
      | tail _ hlater => exact ih hlater
      | head =>
          obtain ⟨_, field, hfind, hread⟩ := readMember_eq_some_iff.mp hmember
          have hname := List.find?_some hfind
          exact ⟨field, List.mem_of_find?_eq_some hfind, eq_of_beq hname, member.2, hread⟩

theorem applyChanges_eq_of_perm {shape : Shape α} (hind : shape.IsIndependent) {levels : Nat}
    {members : List (StringLiteral × Node)} {changes changes' : List (Option (String × (α → α)))}
    (hchanges : List.Forall₂ (fun member change => shape.readMember levels member = .ok change)
      members changes)
    (hnodup : (changedNames changes).Nodup)
    (hperm : changes.reduceOption.Perm changes'.reduceOption) (record : α) :
    applyChanges changes record = applyChanges changes' record := by
  have : Std.Symm (@Field.Commutes α) := ⟨fun _ _ => Field.Commutes.symm⟩
  apply hperm.foldl_eq'
  intro change hmem other hmem' record
  obtain rfl | hne := eq_or_ne change other
  · rfl
  obtain ⟨field, hfield, hname, node, hread⟩ := exists_field_of_mem hchanges hmem
  obtain ⟨field', hfield', hname', node', hread'⟩ := exists_field_of_mem hchanges hmem'
  -- the names of the changes differ, so their fields do
  have hnames : change.1 ≠ other.1 := fun h => hne (List.inj_on_of_nodup_map hnodup hmem hmem' h)
  have hfields : field ≠ field' := by
    rintro rfl
    exact hnames (hname.symm.trans hname')
  exact (hind.forall hfield hfield' hfields hread hread' record).symm

end Shape

end WebComponents.Json
