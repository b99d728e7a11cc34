import WebComponents.Path.Basic

/-!
# Component metadata

What a compiler found out about a web component: its tag, the file that declares it, and its
properties, events and methods with their types as they were written.  A type names other types;
`References` says for each such name, in order, where it is declared.
-/

namespace WebComponents.Metadata

/-- A remark in a doc comment, such as `@deprecated use other`. -/
structure DocTag where
  name : String
  text? : Option String
  deriving DecidableEq, Repr

/-- A doc comment. -/
structure Docs where
  text : String
  tags : List DocTag
  deriving DecidableEq, Repr

/-- Where a type that is referred to by name is declared. -/
inductive Reference where
  /-- Known everywhere. -/
  | everywhere
  /-- In the file that refers to it. -/
  | here
  /-- In the module that the file imports it from. -/
  | imported (specifier : String)
  deriving DecidableEq, Repr

/-- The entries with `value` under the name: in its old place, or last if the name is new. -/
def insertEntry {α : Type} (name : String) (value : α) : List (String × α) → List (String × α)
  | [] => [(name, value)]
  | entry :: entries =>
    if entry.1 = name then (name, value) :: entries else entry :: insertEntry name value entries

theorem mem_names_insertEntry {α : Type} {name other : String} {value : α}
    {entries : List (String × α)} :
    other ∈ (insertEntry name value entries).map (·.1) ↔
      other = name ∨ other ∈ entries.map (·.1) := by
  induction entries with
  | nil => simp [insertEntry]
  | cons entry entries ih =>
      unfold insertEntry
      split
      · rename_i h
        simp [h]
      · simp only [List.map_cons, List.mem_cons, ih]
        exact or_left_comm

theorem nodup_names_insertEntry {α : Type} {name : String} {value : α}
    {entries : List (String × α)} (h : (entries.map (·.1)).Nodup) :
    ((insertEntry name value entries).map (·.1)).Nodup := by
  induction entries with
  | nil => simp [insertEntry]
  | cons entry entries ih =>
      unfold insertEntry
      simp only [List.map_cons, List.nodup_cons] at h
      split
      · rename_i heq
        simpa [← heq] using h
      · rename_i hne
        simp only [List.map_cons, List.nodup_cons]
        refine ⟨?_, ih h.2⟩
        rw [mem_names_insertEntry]
        rintro (heq | hmem)
        · exact hne heq
        · exact h.1 hmem

/-- A name that is not there yet is inserted at the end. -/
theorem insertEntry_of_not_mem {α : Type} {name : String} {value : α}
    {entries : List (String × α)} (h : name ∉ entries.map (·.1)) :
    insertEntry name value entries = entries ++ [(name, value)] := by
  induction entries with
  | nil => rfl
  | cons entry entries ih =>
      rw [List.map_cons, List.mem_cons, not_or] at h
      rw [insertEntry, if_neg (Ne.symm h.1), ih h.2, List.cons_append]

/-- Where no name stands twice, none of the names before an entry is its name. -/
theorem name_notMem_of_nodup {α : Type} {entry : String × α} {entries more : List (String × α)}
    (h : ((entries ++ entry :: more).map (·.1)).Nodup) : entry.1 ∉ entries.map (·.1) := by
  rw [List.map_append, List.nodup_append] at h
  exact fun hmem => h.2.2 _ hmem _ List.mem_cons_self rfl

/-- The types that a type refers to, by name, in order; no name stands twice. -/
structure References where
  entries : List (String × Reference)
  nodup_names : (entries.map (·.1)).Nodup
  deriving DecidableEq, Repr

namespace References

/-- No references. -/
def empty : References := ⟨[], List.nodup_nil⟩

/-- The references with one more; a name that is there already keeps its place. -/
def insert (references : References) (name : String) (reference : Reference) : References :=
  ⟨insertEntry name reference references.entries, nodup_names_insertEntry references.nodup_names⟩

theorem entries_insert {references : References} {name : String}
    (hnew : name ∉ references.entries.map (·.1)) (reference : Reference) :
    (references.insert name reference).entries = references.entries ++ [(name, reference)] :=
  insertEntry_of_not_mem hnew

/-- The references given by pairs, of which a later one for the same name counts. -/
def ofPairs (pairs : List (String × Reference)) : References :=
  pairs.foldl (fun references (name, reference) => references.insert name reference) empty

end References

/-- The type of a property or of an event's payload. -/
structure ValueType where
  /-- The text as the author wrote it. -/
  written : String
  /-- The text with its aliases expanded. -/
  resolved : String
  references : References
  deriving DecidableEq, Repr

/-- The type of a method. -/
structure MethodType where
  signature : String
  parameters : List Docs
  result : String
  references : References
  deriving DecidableEq, Repr

/-- A property that the component declares. -/
structure Property where
  name : String
  type : ValueType
  docs? : Option Docs
  internal : Bool
  optional : Bool
  required : Bool
  deriving DecidableEq, Repr

/-- A property that is only documented. -/
structure VirtualProperty where
  name : String
  type : String
  docs : String
  deriving DecidableEq, Repr

/-- An event that the component dispatches. -/
structure Event where
  name : String
  method : String
  bubbles : Bool
  cancelable : Bool
  composed : Bool
  internal : Bool
  type : ValueType
  docs? : Option Docs
  deriving DecidableEq, Repr

/-- A method of the component. -/
structure Method where
  name : String
  internal : Bool
  type : MethodType
  docs? : Option Docs
  deriving DecidableEq, Repr

/-- A component. -/
structure Component where
  tag : String
  source : Path
  properties : List Property
  virtualProperties : List VirtualProperty
  events : List Event
  methods : List Method
  deriving DecidableEq, Repr

/-! ## Values with defaults -/

/-- A type that is written as `text`, without references. -/
def ValueType.ofText (text : String) : ValueType := ⟨text, "", .empty⟩

/-- A method type with the signature and result, without references. -/
def MethodType.ofSignature (signature result : String) : MethodType :=
  ⟨signature, [], result, .empty⟩

/-- A property that is neither internal, optional nor required. -/
def Property.ofType (name : String) (type : ValueType) : Property :=
  ⟨name, type, none, false, false, false⟩

/-- An event with the flags of a freshly declared one: it bubbles, can be cancelled and crosses
shadow boundaries, and the method that dispatches it has its name. -/
def Event.ofType (name : String) (type : ValueType) : Event :=
  ⟨name, name, true, true, true, false, type, none⟩

/-- A method that is not internal. -/
def Method.ofType (name : String) (type : MethodType) : Method :=
  ⟨name, false, type, none⟩

/-- A component without members. -/
def Component.ofTag (tag : String) (source : Path) : Component :=
  ⟨tag, source, [], [], [], []⟩

end WebComponents.Metadata
