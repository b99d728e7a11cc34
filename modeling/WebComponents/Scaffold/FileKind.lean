import WebComponents.Text.Case

/-!
# The files of a component

A component always has its source file; a stylesheet and two kinds of tests are added on request.
-/

namespace WebComponents.Scaffold

/-- A kind of file that is generated for a component. -/
inductive FileKind where
  | component
  | stylesheet
  | specTest
  | endToEndTest
  deriving DecidableEq, Repr

namespace FileKind

/-- The kinds that are generated on request. -/
def onRequest : List FileKind := [.stylesheet, .specTest, .endToEndTest]

/-- The file name extension. -/
def extension : FileKind → String
  | .component => "tsx"
  | .stylesheet => "css"
  | .specTest => "spec.tsx"
  | .endToEndTest => "e2e.ts"

/-- The kind as a choice in a menu. -/
def title : FileKind → String
  | .component => "Component (.tsx)"
  | .stylesheet => "Stylesheet (.css)"
  | .specTest => "Spec Test (.spec.tsx)"
  | .endToEndTest => "E2E Test (.e2e.ts)"

/-- Tests have a directory of their own. -/
def isTest : FileKind → Bool
  | .specTest | .endToEndTest => true
  | _ => false

/-- The kind that a text asks for: its extension, in any case and with any dots in front, or the
first word of it. -/
def ofText? (text : String) : Option FileKind :=
  match String.ofList (Text.lower (text.toList.dropWhile (· == '.'))) with
  | "tsx" => some .component
  | "css" => some .stylesheet
  | "spec.tsx" | "spec" => some .specTest
  | "e2e.ts" | "e2e" => some .endToEndTest
  | _ => none

/-- The refusal of a text that asks for no kind. -/
def unknownMessage (text : String) : String :=
  "unknown file kind '" ++ text ++ "', expected 'css', 'spec.tsx' or 'e2e.ts'"

end FileKind

end WebComponents.Scaffold
