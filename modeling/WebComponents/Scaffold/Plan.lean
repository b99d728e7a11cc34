import WebComponents.Scaffold.Boilerplate

/-!
# What is generated for a component, and where

The user names a component by its tag, with directories in front if it shall lie deeper.  Only plain
names of that input lead to the component's directory, so it stays below the directory of all
components whatever the input says.
-/

namespace WebComponents.Scaffold

/-- The directory of all components inside the source directory. -/
def componentsDirectory : String := "components"

/-- The tag that an input ends with; empty if it does not end with a name. -/
def componentTag (input : String) : String :=
  (Path.mk input).fileName?.getD ""

/-- The directory of the component that an input names. -/
def componentDirectory (sourceDir : Path) (input : String) : Path :=
  let names := ((Path.mk input).parent?.map Path.segments |>.getD []).filter fun segment =>
    match segment with
    | .name _ => true
    | _ => false
  let above := names.foldl (fun path segment => path.join ⟨segment.text⟩)
    (sourceDir.join ⟨componentsDirectory⟩)
  above.join ⟨componentTag input⟩

/-- The list without the items that stand earlier in it. -/
def distinctKinds : List FileKind → List FileKind
  | [] => []
  | kind :: kinds => kind :: (distinctKinds kinds).filter (· ≠ kind)

/-- A component to be generated. -/
structure Plan where
  tag : String
  directory : Path
  kinds : List FileKind
  deriving DecidableEq, Repr

namespace Plan

/-- The plan for the component that an input names, with the requested kinds of files. -/
def ofInput (sourceDir : Path) (input : String) (requested : List FileKind) : Plan where
  tag := componentTag input
  directory := componentDirectory sourceDir input
  kinds := distinctKinds (.component :: requested)

/-- Whether the component gets a stylesheet. -/
def withStylesheet (plan : Plan) : Bool :=
  plan.kinds.contains .stylesheet

/-- Whether the component gets tests. -/
def hasTests (plan : Plan) : Bool :=
  plan.kinds.any FileKind.isTest

/-- The place of a file of the plan. -/
def path (plan : Plan) (kind : FileKind) : Path :=
  filePath plan.directory plan.tag kind

/-- The files of the plan with their places, in order. -/
def files (plan : Plan) : List (FileKind × Path) :=
  plan.kinds.map fun kind => (kind, plan.path kind)

/-- The text of a file of the plan. -/
def content (plan : Plan) (kind : FileKind) : String :=
  boilerplate plan.tag kind plan.withStylesheet

/-- The directories that the plan's files lie in. -/
def directories (plan : Plan) : List Path :=
  plan.directory :: if plan.hasTests then [plan.directory.join ⟨testDirectory⟩] else []

end Plan

end WebComponents.Scaffold
