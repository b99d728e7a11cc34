import WebComponents.Json.Reader
import WebComponents.Metadata.Basic

/-!
# Reading metadata

Every record may leave out its fields, except that a doc tag has a name.  A reference is an object
whose member `location` says its kind, at any place among the others, or an array that starts with
the kind; its other parts are kept until the kind is known.
-/

namespace WebComponents.Metadata

open Json

/-! ## Docs -/

/-- A doc tag in JSON. -/
def docTagShape : Shape DocTag where
  name := "DocTag"
  fields := [
    ⟨"name", true, fun levels node =>
      (fun name tag => { tag with name }) <$> readString "a string" levels node⟩,
    .optional "text" (readOption (readString "a string")) fun text? tag => { tag with text? }]
  blank := ⟨"", none⟩

/-- A doc comment in JSON. -/
def docsShape : Shape Docs where
  name := "Docs"
  fields := [
    .optional "text" (readString "a string") fun text docs => { docs with text },
    .optional "tags" (readList docTagShape.read) fun tags docs => { docs with tags }]
  blank := ⟨"", []⟩

/-! ## References -/

/-- The kinds of a reference. -/
inductive ReferenceKind where
  | everywhere
  | here
  | imported
  deriving DecidableEq, Repr

/-- The names of the kinds. -/
def referenceKindNames : List String := ["global", "local", "import"]

/-- Reads the kind of a reference. -/
def readReferenceKind : Reader ReferenceKind := fun levels node => do
  match ← readString "variant identifier" levels node with
  | "global" => return .everywhere
  | "local" => return .here
  | "import" => return .imported
  | name => .error (.mismatch (.unknownVariant name referenceKindNames))

/-- Reads the members of a reference: the kind, and the others in order. -/
def readReferenceMembers (levels : Nat) :
    List (StringLiteral × Node) → Option ReferenceKind → List (String × Node) →
      Except Error (Option ReferenceKind × List (String × Node))
  | [], location?, others => .ok (location?, others.reverse)
  | (key, value) :: members, location?, others => do
    let name ← key.read
    if name = "location" then
      if location?.isSome then
        .error (.mismatch (.duplicateField "location"))
      else
        let location ← readReferenceKind levels value
        readReferenceMembers levels members (some location) others
    else
      value.keep levels
      readReferenceMembers levels members location? ((name, value) :: others)

/-- The specifier among the members of an import. -/
def importSpecifier (levels : Nat) :
    List (String × Node) → Option String → Except Error String
  | [], some specifier => .ok specifier
  | [], none => .error (.mismatch (.missingField "path"))
  | (name, value) :: members, specifier? =>
    if name = "path" then
      if specifier?.isSome then
        .error (.mismatch (.duplicateField "path"))
      else do
        let specifier ← readString "a string" levels value
        importSpecifier levels members (some specifier)
    else
      importSpecifier levels members specifier?

/-- The reference that an array stands for, from its kind and its other items. -/
def referenceOfItems (levels : Nat) : ReferenceKind → List Node → Except Error Reference
  | .imported, [] =>
    .error (.mismatch (.length 0 "struct variant TypeReference::Import with 1 element"))
  | .imported, item :: more => do
    let specifier ← readString "a string" levels item
    if more.isEmpty then
      return .imported specifier
    else
      .error (.mismatch (.length (more.length + 1) "1 element in sequence"))
  | location, items =>
    if items.isEmpty then
      .ok (if location = .here then .here else .everywhere)
    else
      .error (.mismatch (.length items.length "0 elements in sequence"))

/-- Reads a reference. -/
def readReference : Reader Reference
  | levels, .object members ending => do
    let inner ← enter levels
    let (location?, others) ← readReferenceMembers inner members none []
    ending.read
    match location? with
    | none => .error (.mismatch (.missingField "location"))
    | some .everywhere => return .everywhere
    | some .here => return .here
    | some .imported => return .imported (← importSpecifier inner others none)
  | levels, .array items ending => do
    let inner ← enter levels
    match items with
    | [] =>
      ending.read
      .error (.mismatch (.missingField "location"))
    | item :: others =>
      -- what follows the kind is looked over before the kind asks for it
      let location ← readReferenceKind inner item
      keepItems inner others
      ending.read
      referenceOfItems inner location others
  | _, node => unexpected "internally tagged enum TypeReference" node

/-- Reads the references of a type; of a repeated name the last one counts. -/
def readReferences : Reader References := fun levels node =>
  References.ofPairs <$> readPairs readReference levels node

/-! ## Types -/

/-- The type of a property in JSON. -/
def valueTypeShape : Shape ValueType where
  name := "ComplexType"
  fields := [
    .optional "original" (readString "a string") fun written type => { type with written },
    .optional "resolved" (readString "a string") fun resolved type => { type with resolved },
    .optional "references" readReferences fun references type => { type with references }]
  blank := ⟨"", "", .empty⟩

/-- The type of a method in JSON. -/
def methodTypeShape : Shape MethodType where
  name := "MethodComplexType"
  fields := [
    .optional "signature" (readString "a string") fun signature type => { type with signature },
    .optional "parameters" (readList docsShape.read)
      fun parameters type => { type with parameters },
    .optional "return" (readString "a string") fun result type => { type with result },
    .optional "references" readReferences fun references type => { type with references }]
  blank := ⟨"", [], "", .empty⟩

/-! ## Members and components -/

/-- A property in JSON. -/
def propertyShape : Shape Property where
  name := "Property"
  fields := [
    .optional "name" (readString "a string") fun name property => { property with name },
    .optional "complexType" valueTypeShape.read fun type property => { property with type },
    .optional "docs" (readOption docsShape.read) fun docs? property => { property with docs? },
    .optional "internal" readBoolean fun internal property => { property with internal },
    .optional "optional" readBoolean fun optional property => { property with optional },
    .optional "required" readBoolean fun required property => { property with required }]
  blank := ⟨"", valueTypeShape.blank, none, false, false, false⟩

/-- A documented property in JSON. -/
def virtualPropertyShape : Shape VirtualProperty where
  name := "VirtualProperty"
  fields := [
    .optional "name" (readString "a string") fun name property => { property with name },
    .optional "type" (readString "a string") fun type property => { property with type },
    .optional "docs" (readString "a string") fun docs property => { property with docs }]
  blank := ⟨"", "", ""⟩

/-- An event in JSON. -/
def eventShape : Shape Event where
  name := "Event"
  fields := [
    .optional "name" (readString "a string") fun name event => { event with name },
    .optional "method" (readString "a string") fun method event => { event with method },
    .optional "bubbles" readBoolean fun bubbles event => { event with bubbles },
    .optional "cancelable" readBoolean fun cancelable event => { event with cancelable },
    .optional "composed" readBoolean fun composed event => { event with composed },
    .optional "internal" readBoolean fun internal event => { event with internal },
    .optional "complexType" valueTypeShape.read fun type event => { event with type },
    .optional "docs" (readOption docsShape.read) fun docs? event => { event with docs? }]
  blank := ⟨"", "", false, false, false, false, valueTypeShape.blank, none⟩

/-- A method in JSON. -/
def methodShape : Shape Method where
  name := "Method"
  fields := [
    .optional "name" (readString "a string") fun name method => { method with name },
    .optional "internal" readBoolean fun internal method => { method with internal },
    .optional "complexType" methodTypeShape.read fun type method => { method with type },
    .optional "docs" (readOption docsShape.read) fun docs? method => { method with docs? }]
  blank := ⟨"", false, methodTypeShape.blank, none⟩

/-- A component in JSON. -/
def componentShape : Shape Component where
  name := "ComponentMeta"
  fields := [
    .optional "tagName" (readString "a string") fun tag component => { component with tag },
    .optional "sourceFilePath" (readString "path string")
      fun source component => { component with source := ⟨source⟩ },
    .optional "properties" (readList propertyShape.read)
      fun properties component => { component with properties },
    .optional "virtualProperties" (readList virtualPropertyShape.read)
      fun virtualProperties component => { component with virtualProperties },
    .optional "events" (readList eventShape.read) fun events component => { component with events },
    .optional "methods" (readList methodShape.read)
      fun methods component => { component with methods }]
  blank := ⟨"", ⟨""⟩, [], [], [], []⟩

/-- The components that a metadata text describes. -/
def readComponents (text : String) : Except Error (List Component) :=
  readText (readList componentShape.read) text

end WebComponents.Metadata
