import WebComponents.Json.Mismatch

/-!
# Reading values out of a tree

A `Reader` takes a tree to a value, or to the first problem that stands in its way from left to
right.  It is given the number of further levels of brackets that it may enter, so that a text
cannot nest without bound; a part that nobody asks for is passed over (`skip`), to any depth and
with numbers of any size.

A record is read from an object, in any order and with unknown members passed over, or from an
array of its fields in their own order.  Each field tells how its value changes the record
(`Field.read`), and the record starts from its defaults.
-/

namespace WebComponents.Json

/-- Reads a value where so many further levels of brackets may be entered. -/
abbrev Reader (α : Type) := Nat → Node → Except Error α

/-- The number of nested brackets at which a value that is used becomes too deep. -/
def maxLevels : Nat := 128

/-! ## Passing over -/

/-- The fault that a part of the text ends with. -/
def Ending.fault? : Ending → Option Fault
  | .closed => none
  | .broken fault => some fault

/-- The fault inside a scalar. -/
def Scalar.fault? : Scalar → Option Fault
  | .string literal => literal.fault?
  | .broken fault => some fault
  | _ => none

mutual

/-- The first fault in a tree, if the text is no JSON. -/
def Node.fault? : Node → Option Fault
  | .scalar scalar => scalar.fault?
  | .array items ending => (itemsFault? items).or ending.fault?
  | .object members ending => (membersFault? members).or ending.fault?

/-- The first fault in the items of an array. -/
def itemsFault? : List Node → Option Fault
  | [] => none
  | item :: items => item.fault?.or (itemsFault? items)

/-- The first fault in the members of an object. -/
def membersFault? : List (StringLiteral × Node) → Option Fault
  | [] => none
  | (key, value) :: members => key.fault?.or (value.fault?.or (membersFault? members))

end

/-- Passes over a value. -/
def Node.skip (node : Node) : Except Error Unit :=
  match node.fault? with
  | none => .ok ()
  | some fault => .error fault.skipped

/-! ## Scalars -/

/-- The text of a string that is used. -/
def StringLiteral.read (literal : StringLiteral) : Except Error String :=
  literal.text.mapError Fault.used

/-- The value of a number that is used. -/
def Numeral.read (numeral : Numeral) : Except Error Number :=
  match numeral.value? with
  | some number => .ok number
  | none => .error .malformed

/-- The kind of a value, as far as the text shows one. -/
def Node.found : Node → Except Error Found
  | .scalar .null => .ok .null
  | .scalar (.boolean value) => .ok (.boolean value)
  | .scalar (.number numeral) => return .number (← numeral.read)
  | .scalar (.string literal) => return .string (← literal.read)
  | .scalar (.broken fault) => .error fault.used
  | .array _ _ => .ok .sequence
  | .object _ _ => .ok .map

/-- Refuses a value that is not of the expected kind. -/
def unexpected {α : Type} (expected : String) (node : Node) : Except Error α := do
  .error (.mismatch (.kind (← node.found) expected))

/-- Reads a text. -/
def readString (expected : String) : Reader String
  | _, .scalar (.string literal) => literal.read
  | _, node => unexpected expected node

/-- Reads a truth value. -/
def readBoolean : Reader Bool
  | _, .scalar (.boolean value) => .ok value
  | _, node => unexpected "a boolean" node

/-- Reads a value that may be `null`. -/
def readOption {α : Type} (read : Reader α) : Reader (Option α)
  | _, .scalar .null => .ok none
  | levels, node => some <$> read levels node

/-! ## Arrays and maps -/

/-- The levels left inside a bracket. -/
def enter (levels : Nat) : Except Error Nat :=
  if levels ≤ 1 then .error .malformed else .ok (levels - 1)

/-- Accepts a container that is closed. -/
def Ending.read : Ending → Except Error Unit
  | .closed => .ok ()
  | .broken fault => .error fault.used

/-- Reads the items of an array. -/
def readList {α : Type} (read : Reader α) : Reader (List α)
  | levels, .array items ending => do
    let inner ← enter levels
    let values ← items.mapM (read inner)
    ending.read
    return values
  | _, node => unexpected "a sequence" node

/-- Reads the members of an object in order, with repeated keys kept. -/
def readPairs {α : Type} (read : Reader α) : Reader (List (String × α))
  | levels, .object members ending => do
    let inner ← enter levels
    let pairs ← members.mapM fun (key, value) => do
      let name ← key.read
      return (name, ← read inner value)
    ending.read
    return pairs
  | _, node => unexpected "a map" node

/-! ## Records -/

/-- A field of a record: its name, whether it must be given, and what its value does to the
record. -/
structure Field (α : Type) where
  name : String
  required : Bool
  read : Reader (α → α)

/-- A field that may be left out. -/
def Field.optional {α β : Type} (name : String) (read : Reader β) (set : β → α → α) : Field α :=
  ⟨name, false, fun levels node => set <$> read levels node⟩

/-- A kind of record: its name, its fields in order, and the record without any. -/
structure Shape (α : Type) where
  name : String
  fields : List (Field α)
  blank : α

namespace Shape

variable {α : Type}

/-- Reads the members of an object into a record; `seen` are the names of the fields read so
far. -/
def readMembers (shape : Shape α) (levels : Nat) :
    List (StringLiteral × Node) → List String → α → Except Error (List String × α)
  | [], seen, record => .ok (seen, record)
  | (key, value) :: members, seen, record => do
    let name ← key.read
    match shape.fields.find? (·.name == name) with
    | none =>
      value.skip
      shape.readMembers levels members seen record
    | some field =>
      if seen.contains name then
        .error (.mismatch (.duplicateField name))
      else
        let update ← field.read levels value
        shape.readMembers levels members (name :: seen) (update record)

/-- Accepts an object that gave the fields `seen`. -/
def checkRequired (shape : Shape α) (seen : List String) : Except Error Unit :=
  match shape.fields.find? fun field => field.required && !seen.contains field.name with
  | none => .ok ()
  | some field => .error (.mismatch (.missingField field.name))

/-- Reads the items of an array into the fields in order; `index` counts the fields before
these. -/
def readItems (shape : Shape α) (levels : Nat) (ending : Ending) :
    List (Field α) → List Node → Nat → α → Except Error α
  | [], [], _, record => do
    ending.read
    return record
  | [], _ :: _, _, _ => .error .malformed
  | field :: fields, [], index, record => do
    ending.read
    if field.required then
      .error (.mismatch (.length index
        ("struct " ++ shape.name ++ " with " ++ toString shape.fields.length ++ " elements")))
    else
      shape.readItems levels ending fields [] (index + 1) record
  | field :: fields, item :: items, index, record => do
    let update ← field.read levels item
    shape.readItems levels ending fields items (index + 1) (update record)

/-- Reads a record. -/
def read (shape : Shape α) : Reader α
  | levels, .object members ending => do
    let inner ← enter levels
    let (seen, record) ← shape.readMembers inner members [] shape.blank
    ending.read
    shape.checkRequired seen
    return record
  | levels, .array items ending => do
    let inner ← enter levels
    shape.readItems inner ending shape.fields items 0 shape.blank
  | _, node => unexpected ("struct " ++ shape.name) node

end Shape

/-! ## Values kept for later -/

mutual

/-- Accepts a value that is kept for later use: no fault, no lone surrogate, no number out of range
and not too many levels. -/
def Node.keep (levels : Nat) : Node → Except Error Unit
  | .scalar scalar => do
    let _ ← Node.found (.scalar scalar)
  | .array items ending =>
    if levels ≤ 1 then .error .malformed
    else do
      keepItems (levels - 1) items
      ending.read
  | .object members ending =>
    if levels ≤ 1 then .error .malformed
    else do
      keepMembers (levels - 1) members
      ending.read

/-- Accepts the items of an array that are kept. -/
def keepItems (levels : Nat) : List Node → Except Error Unit
  | [] => .ok ()
  | item :: items => do
    item.keep levels
    keepItems levels items

/-- Accepts the members of an object that are kept. -/
def keepMembers (levels : Nat) : List (StringLiteral × Node) → Except Error Unit
  | [] => .ok ()
  | (key, value) :: members => do
    let _ ← key.read
    value.keep levels
    keepMembers levels members

end

/-! ## Whole texts -/

/-- Reads a text that holds one value. -/
def readText {α : Type} (read : Reader α) (text : String) : Except Error α := do
  let document := Document.ofText text
  let value ← read maxLevels document.root
  if document.trailing then .error .malformed else .ok value

end WebComponents.Json
