import WebComponents.CommandLine.Run

/-!
# The footprint of a command

A command reads some paths, and looks at or writes some others.  The second ones may depend on the
contents of the first: only a project tells where its sources lie.  A file tree that agrees with the
file system on both is all that a run needs.
-/

namespace WebComponents.CommandLine

open Files Scaffold

/-- The paths whose contents a command reads. -/
def Command.sources : Command → List Path
  | .generate _ _ config => [config]
  | .types metadata _ => [metadata]
  | .redirectImports files typings? config => config :: files ++ typings?.toList
  | .completions _ => []

/-- The paths that a command looks at or writes, found in a tree that holds its sources. -/
def Command.targets (tree : FileTree) : Command → List Path
  | .generate (some input) (some kinds) config =>
    match openSources config tree with
    | .error _ => []
    | .ok (_, sourceDir) =>
      let plan := Plan.ofInput sourceDir input kinds
      plan.directories ++ plan.files.map (·.2)
  | .generate _ _ _ => []
  | .types _ output? => output?.toList
  | .redirectImports _ _ config =>
    match openTypes config tree with
    | .error _ => []
    | .ok typesDir => [Typings.typingsPath typesDir]
  | .completions _ => []

end WebComponents.CommandLine
