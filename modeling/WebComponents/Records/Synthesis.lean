import WebComponents.Exports.Rename
import WebComponents.Json.Value
import WebComponents.Naming
import WebComponents.Records.DocText

/-!
# Type records

A declaration file lists a component's members as records: a name, a type, three flags and the text
of the doc comment.  `synthesize` goes through the components in order.  The types of a component
are registered before its records are made, so a record only uses export names that the registry
holds, and earlier components keep theirs.
-/

namespace WebComponents.Records

open Metadata Exports

/-- A member of a component as it is declared. -/
structure TypeRecord where
  name : String
  type : String
  optional : Bool
  required : Bool
  internal : Bool
  doc : String
  deriving DecidableEq, Repr

/-- The records of a component. -/
structure ComponentRecords where
  tag : String
  properties : List TypeRecord
  events : List TypeRecord
  methods : List TypeRecord
  deriving DecidableEq, Repr

/-- The records of all components, and the registry that gave the export names. -/
structure Synthesis where
  components : List ComponentRecords
  exports : Registry
  deriving DecidableEq, Repr

/-! ## Properties -/

/-- The record of a property. -/
def propertyRecord (registry : Registry) (source : Path) (property : Property) : TypeRecord where
  name := property.name
  type :=
    renameType renameIdentifier registry source property.type.references property.type.written
  optional := property.optional
  required := property.required
  internal := property.internal
  doc := optionalDocText property.docs?

/-- The record of a property that is only documented; it is always optional. -/
def virtualPropertyRecord (property : VirtualProperty) : TypeRecord where
  name := property.name
  type := property.type
  optional := true
  required := false
  internal := false
  doc := property.docs

/-- The records of all properties, the documented ones last. -/
def propertyRecords (registry : Registry) (component : Component) : List TypeRecord :=
  component.properties.map (propertyRecord registry component.source) ++
    component.virtualProperties.map virtualPropertyRecord

/-! ## Events -/

/-- The type of the handler for an event with the payload type `payload`. -/
def handlerType (payload : String) : String :=
  "(event: CustomEvent<" ++ payload ++ ">) => void"

/-- The type of an event's handler property. -/
def eventType (registry : Registry) (source : Path) (type : ValueType) : String :=
  if type.written = "" then "CustomEvent"
  else handlerType (renameType renameIdentifier registry source type.references type.written)

/-- The record of an event. -/
def eventRecord (registry : Registry) (source : Path) (event : Event) : TypeRecord where
  name := "on" ++ Naming.titleCase event.name
  type := eventType registry source event.type
  optional := false
  required := false
  internal := event.internal
  doc := optionalDocText event.docs?

/-- The records of all events. -/
def eventRecords (registry : Registry) (component : Component) : List TypeRecord :=
  component.events.map (eventRecord registry component.source)

/-! ## Methods -/

/-- The record of a method. -/
def methodRecord (registry : Registry) (source : Path) (method : Method) : TypeRecord where
  name := method.name
  type :=
    renameType renameOccurrences registry source method.type.references method.type.signature
  optional := false
  required := false
  internal := method.internal
  doc := optionalDocText method.docs?

/-- The records of all methods. -/
def methodRecords (registry : Registry) (component : Component) : List TypeRecord :=
  component.methods.map (methodRecord registry component.source)

/-! ## Components -/

/-- The records of a component under the export names of a registry. -/
def componentRecords (registry : Registry) (component : Component) : ComponentRecords where
  tag := component.tag
  properties := propertyRecords registry component
  events := eventRecords registry component
  methods := methodRecords registry component

/-- The records of the components from the given ledger on, and the ledger at the end. -/
def synthesizeFrom (ledger : Ledger) : List Component → List ComponentRecords × Ledger
  | [] => ([], ledger)
  | component :: components =>
    let registered := ledger.registerComponent component
    let (records, final) := synthesizeFrom registered components
    (componentRecords registered.registry component :: records, final)

/-- The records of the components and the registry of their types. -/
def synthesize (components : List Component) : Synthesis :=
  let (records, final) := synthesizeFrom .empty components
  ⟨records, final.registry⟩

/-! ## In JSON -/

open Json

/-- A record in JSON. -/
def TypeRecord.toJson (record : TypeRecord) : Value :=
  .object [("name", .string record.name), ("type", .string record.type),
    ("optional", .boolean record.optional), ("required", .boolean record.required),
    ("internal", .boolean record.internal), ("jsdoc", .string record.doc)]

/-- The records of a component in JSON. -/
def ComponentRecords.toJson (records : ComponentRecords) : Value :=
  .object [("tagName", .string records.tag),
    ("properties", .array (records.properties.map TypeRecord.toJson)),
    ("events", .array (records.events.map TypeRecord.toJson)),
    ("methods", .array (records.methods.map TypeRecord.toJson))]

/-- A registered type in JSON. -/
def aliasJson (item : Alias) : Value :=
  .object [("localName", .string item.localName), ("importName", .string item.exportName)]

/-- A registry in JSON: an object of the declaring files. -/
def registryJson (registry : Registry) : Value :=
  .object (registry.entries.map fun entry =>
    (entry.file.text, .array (entry.aliases.map aliasJson)))

/-- The result of a synthesis in JSON. -/
def Synthesis.toJson (synthesis : Synthesis) : Value :=
  .object [("components", .array (synthesis.components.map ComponentRecords.toJson)),
    ("imports", registryJson synthesis.exports)]

end WebComponents.Records
