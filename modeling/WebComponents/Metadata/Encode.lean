import WebComponents.Json.Value
import WebComponents.Metadata.Basic

/-!
# Writing metadata

Every record is an object of all its fields in their own order.
-/

namespace WebComponents.Metadata

open Json

/-- A doc tag in JSON. -/
def DocTag.toJson (tag : DocTag) : Value :=
  .object [("name", .string tag.name), ("text", (tag.text?.map Value.string).getD .null)]

/-- A doc comment in JSON. -/
def Docs.toJson (docs : Docs) : Value :=
  .object [("text", .string docs.text), ("tags", .array (docs.tags.map DocTag.toJson))]

/-- A doc comment that may be missing, in JSON. -/
def optionalDocs (docs? : Option Docs) : Value :=
  (docs?.map Docs.toJson).getD .null

/-- A reference in JSON. -/
def Reference.toJson : Reference → Value
  | .everywhere => .object [("location", .string "global")]
  | .here => .object [("location", .string "local")]
  | .imported specifier => .object [("location", .string "import"), ("path", .string specifier)]

/-- The references of a type in JSON. -/
def References.toJson (references : References) : Value :=
  .object (references.entries.map fun (name, reference) => (name, reference.toJson))

/-- The type of a property in JSON. -/
def ValueType.toJson (type : ValueType) : Value :=
  .object [("original", .string type.written), ("resolved", .string type.resolved),
    ("references", type.references.toJson)]

/-- The type of a method in JSON. -/
def MethodType.toJson (type : MethodType) : Value :=
  .object [("signature", .string type.signature),
    ("parameters", .array (type.parameters.map Docs.toJson)), ("return", .string type.result),
    ("references", type.references.toJson)]

/-- A property in JSON. -/
def Property.toJson (property : Property) : Value :=
  .object [("name", .string property.name), ("complexType", property.type.toJson),
    ("docs", optionalDocs property.docs?), ("internal", .boolean property.internal),
    ("optional", .boolean property.optional), ("required", .boolean property.required)]

/-- A documented property in JSON. -/
def VirtualProperty.toJson (property : VirtualProperty) : Value :=
  .object [("name", .string property.name), ("type", .string property.type),
    ("docs", .string property.docs)]

/-- An event in JSON. -/
def Event.toJson (event : Event) : Value :=
  .object [("name", .string event.name), ("method", .string event.method),
    ("bubbles", .boolean event.bubbles), ("cancelable", .boolean event.cancelable),
    ("composed", .boolean event.composed), ("internal", .boolean event.internal),
    ("complexType", event.type.toJson), ("docs", optionalDocs event.docs?)]

/-- A method in JSON. -/
def Method.toJson (method : Method) : Value :=
  .object [("name", .string method.name), ("internal", .boolean method.internal),
    ("complexType", method.type.toJson), ("docs", optionalDocs method.docs?)]

/-- A component in JSON. -/
def Component.toJson (component : Component) : Value :=
  .object [("tagName", .string component.tag), ("sourceFilePath", .string component.source.text),
    ("properties", .array (component.properties.map Property.toJson)),
    ("virtualProperties", .array (component.virtualProperties.map VirtualProperty.toJson)),
    ("events", .array (component.events.map Event.toJson)),
    ("methods", .array (component.methods.map Method.toJson))]

end WebComponents.Metadata
