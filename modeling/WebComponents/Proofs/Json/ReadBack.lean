import Mathlib.Data.List.Nodup
import WebComponents.Proofs.Json.Members
import WebComponents.Proofs.Json.WrittenText

/-!
# Readers that take back what was written

A writer turns values into JSON and a reader turns trees into values.  `ReadsBack` says that the
reader undoes the writer wherever enough brackets may still be entered.  It passes from the parts to
the whole:

```text
text, truth value      needs 0 levels
list                   one more than its items
optional value         as many as the value
record                 one more than its fields
```

For a record the fields stand side by side with the members that were written for them (`Fills`),
in the same order, so that every member finds its field and none comes twice (`readsBack_of_fills`).
-/

namespace WebComponents.Json

variable {α β : Type}

/-- The reader takes back what the writer wrote, where more than `depth` levels are left. -/
def ReadsBack (toJson : α → Value) (read : Reader α) (depth : Nat) : Prop :=
  ∀ value levels, depth < levels → read levels (toJson value).node = .ok value

/-- A text that the writer makes is read as the value that it was made from. -/
def RoundTrips (toJson : α → Value) (read : Reader α) : Prop :=
  ∀ value, readText read (toJson value).compact = .ok value

/-- A reader that takes back the tree takes back the text. -/
theorem ReadsBack.roundTrips {toJson : α → Value} {read : Reader α} {depth : Nat}
    (h : ReadsBack toJson read depth) (hdepth : depth < maxLevels) : RoundTrips toJson read := by
  intro value
  rw [readText, ofText_compact]
  exact bind_eq_ok_iff.mpr ⟨value, h value maxLevels hdepth, rfl⟩

/-! ## Scalars -/

@[simp] theorem read_ofText (text : String) : (StringLiteral.ofText text).read = .ok text := by
  rw [StringLiteral.read, text_ofText]
  rfl

theorem readString_node (expected : String) (levels : Nat) (text : String) :
    readString expected levels (Value.string text).node = .ok text :=
  read_ofText text

theorem readsBack_string (expected : String) : ReadsBack .string (readString expected) 0 :=
  fun text levels _ => readString_node expected levels text

theorem readsBack_boolean : ReadsBack .boolean readBoolean 0 :=
  fun _ _ _ => rfl

/-- A value that may be missing is `null` if it is, so what is written for a value must not be
`null`. -/
theorem ReadsBack.option {toJson : α → Value} {read : Reader α} {depth : Nat}
    (h : ReadsBack toJson read depth) (hnull : ∀ value, (toJson value).node ≠ .scalar .null) :
    ReadsBack (fun value? => (value?.map toJson).getD .null) (readOption read) depth := by
  intro value? levels hlevels
  cases value? with
  | none => rfl
  | some value =>
      show readOption read levels (toJson value).node = .ok (some value)
      rw [readOption.eq_2 _ _ _ (hnull value), h value levels hlevels]
      rfl

/-! ## Arrays and maps -/

theorem enter_succ {levels : Nat} (h : 0 < levels) : enter (levels + 1) = .ok levels := by
  rw [enter, if_neg (by omega)]
  rfl

theorem itemNodes_eq_map (items : List Value) : itemNodes items = items.map Value.node := by
  induction items with
  | nil => rfl
  | cons item items ih => rw [itemNodes, ih, List.map_cons]

theorem memberNodes_eq_map (members : List (String × Value)) :
    memberNodes members = members.map fun (key, value) => (.ofText key, value.node) := by
  induction members with
  | nil => rfl
  | cons member members ih => rw [memberNodes, ih, List.map_cons]

theorem ReadsBack.list {toJson : α → Value} {read : Reader α} {depth : Nat}
    (h : ReadsBack toJson read depth) :
    ReadsBack (fun items => .array (items.map toJson)) (readList read) (depth + 1) := by
  intro items levels hlevels
  obtain ⟨inner, rfl⟩ : ∃ inner, levels = inner + 1 := ⟨levels - 1, by omega⟩
  have hitems : (itemNodes (items.map toJson)).mapM (read inner) = .ok items := by
    rw [mapM_eq_ok_iff, itemNodes_eq_map, List.map_map, List.forall₂_map_left_iff]
    exact List.forall₂_same.mpr fun item _ => h item inner (by omega)
  rw [Value.node, readList, enter_succ (by omega), ok_bind, hitems]
  rfl

/-- A map is taken back with its entries in their order. -/
theorem readPairs_node {toJson : α → Value} {read : Reader α} {depth : Nat}
    (h : ReadsBack toJson read depth) (entries : List (String × α)) {levels : Nat}
    (hlevels : depth + 1 < levels) :
    readPairs read levels
        (Value.object (entries.map fun (name, value) => (name, toJson value))).node =
      .ok entries := by
  obtain ⟨inner, rfl⟩ : ∃ inner, levels = inner + 1 := ⟨levels - 1, by omega⟩
  rw [Value.node, readPairs, enter_succ (by omega), ok_bind]
  refine bind_eq_ok_iff.mpr ⟨entries, ?_, rfl⟩
  rw [mapM_eq_ok_iff, memberNodes_eq_map, List.map_map, List.forall₂_map_left_iff]
  refine List.forall₂_same.mpr fun entry _ => ?_
  simp only [Function.comp_apply, read_ofText, h entry.2 inner (by omega)]
  rfl

/-! ## Records -/

/-- The members are those of the fields, in order, and reading them leads from one record to the
other. -/
inductive Fills (levels : Nat) : List (Field α) → List (String × Value) → α → α → Prop
  | nil {record : α} : Fills levels [] [] record record
  | cons {field : Field α} {fields : List (Field α)} {value : Value}
      {members : List (String × Value)} {change : α → α} {record final : α}
      (hread : field.read levels value.node = .ok change)
      (hrest : Fills levels fields members (change record) final) :
      Fills levels (field :: fields) ((field.name, value) :: members) record final

/-- A field that may be left out sets what its reader takes back. -/
theorem Fills.optional {toJson : β → Value} {read : Reader β} {depth levels : Nat}
    {fields : List (Field α)} {members : List (String × Value)} {name : String}
    {set : β → α → α} {value : β} {record final : α}
    (h : ReadsBack toJson read depth) (hlevels : depth < levels)
    (hrest : Fills levels fields members (set value record) final) :
    Fills levels (.optional name read set :: fields) ((name, toJson value) :: members)
      record final := by
  have hread : (Field.optional name read set).read levels (toJson value).node =
      .ok (set value) := by
    show set <$> read levels (toJson value).node = _
    rw [h value levels hlevels, map_ok]
  exact .cons hread hrest

/-- Among fields of different names each is found by its name. -/
theorem find?_eq_some_of_nodup {fields : List (Field α)} (hnodup : (fields.map (·.name)).Nodup)
    {field : Field α} (h : field ∈ fields) :
    fields.find? (·.name == field.name) = some field := by
  cases hfind : fields.find? (·.name == field.name) with
  | none => exact absurd (beq_self_eq_true field.name) (List.find?_eq_none.mp hfind field h)
  | some found =>
      have hname := List.find?_some hfind
      have hmem := List.mem_of_find?_eq_some hfind
      rw [List.inj_on_of_nodup_map hnodup hmem h (eq_of_beq hname)]

/-- Each member changes the record under the name of its field. -/
theorem exists_changes_of_fills {shape : Shape α} (hnodup : (shape.fields.map (·.name)).Nodup)
    {levels : Nat} {fields : List (Field α)} {members : List (String × Value)} {record final : α}
    (h : Fills levels fields members record final) (hfields : fields ⊆ shape.fields) :
    ∃ changes, List.Forall₂ (fun member change => shape.readMember levels member = .ok change)
        (memberNodes members) changes ∧
      Shape.changedNames changes = fields.map (·.name) ∧
      final = Shape.applyChanges changes record := by
  induction h with
  | nil => exact ⟨[], .nil, rfl, rfl⟩
  | @cons field fields value members change record final hread _ ih =>
      rw [List.cons_subset] at hfields
      obtain ⟨changes, hchanges, hnames, hfinal⟩ := ih hfields.2
      have hmember : shape.readMember levels (.ofText field.name, value.node) =
          .ok (some (field.name, change)) :=
        Shape.readMember_eq_some_iff.mpr
          ⟨read_ofText _, field, find?_eq_some_of_nodup hnodup hfields.1, hread⟩
      exact ⟨some (field.name, change) :: changes, .cons hmember hchanges,
        congrArg (field.name :: ·) hnames, hfinal⟩

/-- A record is taken back if each of its fields is. -/
theorem readsBack_of_fills {shape : Shape α} {members : α → List (String × Value)} {depth : Nat}
    (hnodup : (shape.fields.map (·.name)).Nodup)
    (h : ∀ record levels, depth < levels →
      Fills levels shape.fields (members record) shape.blank record) :
    ReadsBack (fun record => .object (members record)) shape.read (depth + 1) := by
  intro record levels hlevels
  obtain ⟨inner, rfl⟩ : ∃ inner, levels = inner + 1 := ⟨levels - 1, by omega⟩
  obtain ⟨changes, hchanges, hnames, hrecord⟩ :=
    exists_changes_of_fills hnodup (h record inner (by omega)) (List.Subset.refl _)
  refine Shape.read_object_eq_ok_iff.mpr
    ⟨inner, enter_succ (by omega), rfl, changes, hchanges, hnames ▸ hnodup, ?_, hrecord⟩
  intro field hfield _
  rw [hnames]
  exact List.mem_map_of_mem hfield

end WebComponents.Json
