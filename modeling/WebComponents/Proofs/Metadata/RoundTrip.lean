import Mathlib.Data.List.Nodup
import WebComponents.Metadata.Decode
import WebComponents.Metadata.Encode
import WebComponents.Proofs.Json.ReadBack

/-!
# Metadata survives being written and read

Every part of the metadata is written as JSON and read back as the same value
(`metadata_roundTrips`).  A record writes all its fields in the order in which its shape lists them,
so for each record there is one lemma that goes through its fields; the numbers say how many levels
of brackets its text has at most:

```text
DocTag 1   Docs 3   Reference 1   References 2   ValueType 3   MethodType 5
Property 4   VirtualProperty 1   Event 4   Method 6   Component 8
```

The names of the references of a type differ, so reading inserts each of them at the end, and their
order is kept (`ofPairs_entries`).
-/

namespace WebComponents.Metadata

open Json

/-! ## Docs -/

theorem readsBack_text : ReadsBack .string (readString "a string") 0 :=
  readsBack_string "a string"

theorem readsBack_docTag : ReadsBack DocTag.toJson docTagShape.read 1 := by
  refine readsBack_of_fills (by decide) fun tag levels hlevels => ?_
  have hname : (docTagShape.fields[0]).read levels (Value.string tag.name).node =
      .ok fun other => { other with name := tag.name } := by
    show _ <$> readString "a string" levels (Value.string tag.name).node = _
    rw [readString_node, map_ok]
  have htext : ReadsBack (fun text? => (text?.map Value.string).getD .null)
      (readOption (readString "a string")) 0 :=
    readsBack_text.option nofun
  exact .cons hname (.optional htext hlevels .nil)

theorem readsBack_docs : ReadsBack Docs.toJson docsShape.read 3 :=
  readsBack_of_fills (by decide) fun _ _ hlevels =>
    .optional readsBack_text (by omega) (.optional readsBack_docTag.list hlevels .nil)

theorem readsBack_optionalDocs : ReadsBack optionalDocs (readOption docsShape.read) 3 :=
  readsBack_docs.option nofun

/-! ## References -/

theorem readReferenceKind_node (levels : Nat) :
    readReferenceKind levels (Value.string "global").node = .ok .everywhere ∧
    readReferenceKind levels (Value.string "local").node = .ok .here ∧
    readReferenceKind levels (Value.string "import").node = .ok .imported := by
  simp only [readReferenceKind, readString_node, ok_bind]
  exact ⟨rfl, rfl, rfl⟩

/-- The specifier of an import is kept until its kind has been read. -/
theorem keep_string (levels : Nat) (text : String) :
    Node.keep levels (Value.string text).node = .ok () := by
  rw [Value.node, Node.keep, Node.found, read_ofText]
  rfl

theorem readsBack_reference : ReadsBack Reference.toJson readReference 1 := by
  intro reference levels hlevels
  obtain ⟨inner, rfl⟩ : ∃ inner, levels = inner + 1 := ⟨levels - 1, by omega⟩
  obtain ⟨heverywhere, hhere, himported⟩ := readReferenceKind_node inner
  cases reference with
  | everywhere =>
      rw [Reference.toJson, Value.node, readReference, enter_succ (by omega)]
      simp only [ok_bind, memberNodes, readReferenceMembers, read_ofText, heverywhere]
      rfl
  | here =>
      rw [Reference.toJson, Value.node, readReference, enter_succ (by omega)]
      simp only [ok_bind, memberNodes, readReferenceMembers, read_ofText, hhere]
      rfl
  | imported specifier =>
      have hpath : importSpecifier inner [("path", (Value.string specifier).node)] none =
          .ok specifier := by
        simp only [importSpecifier, readString_node, ok_bind]
        rfl
      have hother : "path" ≠ "location" := by decide
      rw [Reference.toJson, Value.node, readReference, enter_succ (by omega)]
      simp only [ok_bind, memberNodes, readReferenceMembers, read_ofText, himported, keep_string,
        if_neg hother]
      show (Reference.imported <$> importSpecifier inner [("path", _)] none) = _
      rw [hpath, map_ok]

theorem entries_foldl_insert (references : References) {pairs : List (String × Reference)}
    (h : ((references.entries ++ pairs).map (·.1)).Nodup) :
    (pairs.foldl (fun references (name, reference) => references.insert name reference)
      references).entries = references.entries ++ pairs := by
  induction pairs generalizing references with
  | nil => exact (List.append_nil _).symm
  | cons pair pairs ih =>
      have hnew : pair.1 ∉ references.entries.map (·.1) := name_notMem_of_nodup h
      have hlater := ih (references.insert pair.1 pair.2)
        (by rwa [References.entries_insert hnew, List.append_assoc])
      rw [List.foldl_cons, hlater, References.entries_insert hnew, List.append_assoc]
      rfl

/-- References are given back by their entries, in order. -/
theorem ofPairs_entries (references : References) :
    References.ofPairs references.entries = references := by
  have hentries := entries_foldl_insert .empty references.nodup_names
  obtain ⟨entries, _⟩ := references
  exact References.mk.injEq .. ▸ hentries

theorem readsBack_references : ReadsBack References.toJson readReferences 2 := by
  intro references levels hlevels
  have hpairs := readPairs_node readsBack_reference references.entries hlevels
  show References.ofPairs <$> readPairs readReference levels _ = _
  rw [References.toJson, hpairs, map_ok, ofPairs_entries]

/-! ## Types -/

theorem readsBack_valueType : ReadsBack ValueType.toJson valueTypeShape.read 3 :=
  readsBack_of_fills (by decide) fun _ _ hlevels =>
    .optional readsBack_text (by omega)
    (.optional readsBack_text (by omega)
    (.optional readsBack_references hlevels .nil))

theorem readsBack_methodType : ReadsBack MethodType.toJson methodTypeShape.read 5 :=
  readsBack_of_fills (by decide) fun _ _ hlevels =>
    .optional readsBack_text (by omega)
    (.optional readsBack_docs.list hlevels
    (.optional readsBack_text (by omega)
    (.optional readsBack_references (by omega) .nil)))

/-! ## Members and components -/

theorem readsBack_property : ReadsBack Property.toJson propertyShape.read 4 :=
  readsBack_of_fills (by decide) fun _ _ hlevels =>
    .optional readsBack_text (by omega)
    (.optional readsBack_valueType hlevels
    (.optional readsBack_optionalDocs hlevels
    (.optional readsBack_boolean (by omega)
    (.optional readsBack_boolean (by omega)
    (.optional readsBack_boolean (by omega) .nil)))))

theorem readsBack_virtualProperty :
    ReadsBack VirtualProperty.toJson virtualPropertyShape.read 1 :=
  readsBack_of_fills (by decide) fun _ _ hlevels =>
    .optional readsBack_text hlevels
    (.optional readsBack_text hlevels
    (.optional readsBack_text hlevels .nil))

theorem readsBack_event : ReadsBack Event.toJson eventShape.read 4 :=
  readsBack_of_fills (by decide) fun _ _ hlevels =>
    .optional readsBack_text (by omega)
    (.optional readsBack_text (by omega)
    (.optional readsBack_boolean (by omega)
    (.optional readsBack_boolean (by omega)
    (.optional readsBack_boolean (by omega)
    (.optional readsBack_boolean (by omega)
    (.optional readsBack_valueType hlevels
    (.optional readsBack_optionalDocs hlevels .nil)))))))

theorem readsBack_method : ReadsBack Method.toJson methodShape.read 6 :=
  readsBack_of_fills (by decide) fun _ _ hlevels =>
    .optional readsBack_text (by omega)
    (.optional readsBack_boolean (by omega)
    (.optional readsBack_methodType hlevels
    (.optional readsBack_optionalDocs (by omega) .nil)))

theorem readsBack_component : ReadsBack Component.toJson componentShape.read 8 :=
  readsBack_of_fills (by decide) fun _ _ hlevels =>
    .optional readsBack_text (by omega)
    (.optional (readsBack_string "path string") (by omega)
    (.optional readsBack_property.list (by omega)
    (.optional readsBack_virtualProperty.list (by omega)
    (.optional readsBack_event.list (by omega)
    (.optional readsBack_method.list hlevels .nil)))))

/-- **Metadata survives a round trip.**  The JSON text of every part of the metadata is read as the
same value, the order of the references included. -/
theorem metadata_roundTrips :
    RoundTrips Component.toJson componentShape.read ∧
    RoundTrips Property.toJson propertyShape.read ∧
    RoundTrips VirtualProperty.toJson virtualPropertyShape.read ∧
    RoundTrips Event.toJson eventShape.read ∧
    RoundTrips Method.toJson methodShape.read ∧
    RoundTrips ValueType.toJson valueTypeShape.read ∧
    RoundTrips MethodType.toJson methodTypeShape.read ∧
    RoundTrips References.toJson readReferences ∧
    RoundTrips Reference.toJson readReference ∧
    RoundTrips Docs.toJson docsShape.read ∧
    RoundTrips DocTag.toJson docTagShape.read :=
  ⟨readsBack_component.roundTrips (by decide), readsBack_property.roundTrips (by decide),
    readsBack_virtualProperty.roundTrips (by decide), readsBack_event.roundTrips (by decide),
    readsBack_method.roundTrips (by decide), readsBack_valueType.roundTrips (by decide),
    readsBack_methodType.roundTrips (by decide), readsBack_references.roundTrips (by decide),
    readsBack_reference.roundTrips (by decide), readsBack_docs.roundTrips (by decide),
    readsBack_docTag.roundTrips (by decide)⟩

end WebComponents.Metadata
