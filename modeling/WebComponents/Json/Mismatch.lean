import WebComponents.Decimal.Shortest
import WebComponents.Json.Document
import WebComponents.Json.Number
import WebComponents.Text.Quoted

/-!
# What can be wrong with a document

A text may stop being JSON, or it may be JSON of another shape than the reader expects.  `Mismatch`
lists the ways of the second kind with their wording.
-/

namespace WebComponents.Json

/-- A value of another kind than expected, as it is told to the user. -/
inductive Found where
  | null
  | boolean (value : Bool)
  | number (value : Number)
  | string (text : String)
  | sequence
  | map

/-- The value in words. -/
def Found.describe : Found → String
  | .null => "null"
  | .boolean value => "boolean `" ++ toString value ++ "`"
  | .number (.natural n) => "integer `" ++ toString n ++ "`"
  | .number (.negative n) => "integer `-" ++ toString n ++ "`"
  | .number (.real value) => "floating point `" ++ Decimal.shortestText value ++ "`"
  | .string text => "string " ++ Text.quoted text
  | .sequence => "sequence"
  | .map => "map"

/-- A document of the wrong shape. -/
inductive Mismatch where
  | kind (found : Found) (expected : String)
  | missingField (name : String)
  | duplicateField (name : String)
  | unknownVariant (name : String) (variants : List String)
  | length (found : Nat) (expected : String)

/-- The mismatch in words. -/
def Mismatch.message : Mismatch → String
  | .kind found expected => "invalid type: " ++ found.describe ++ ", expected " ++ expected
  | .missingField name => "missing field `" ++ name ++ "`"
  | .duplicateField name => "duplicate field `" ++ name ++ "`"
  | .unknownVariant name variants =>
    "unknown variant `" ++ name ++ "`, expected one of " ++
      String.intercalate ", " (variants.map fun variant => "`" ++ variant ++ "`")
  | .length found expected => "invalid length " ++ toString found ++ ", expected " ++ expected

/-- Why a text is not read. -/
inductive Error where
  | malformed
  | unfinished
  | mismatch (mismatch : Mismatch)

/-- The fault as it is met in a value that is used. -/
def Fault.used : Fault → Error
  | .malformed => .malformed
  | .unfinished | .unfinishedNumber => .unfinished

/-- The fault as it is met in a value that is passed over. -/
def Fault.skipped : Fault → Error
  | .malformed | .unfinishedNumber => .malformed
  | .unfinished => .unfinished

end WebComponents.Json
