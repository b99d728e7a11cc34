import WebComponents.CommandLine.Footprint

/-!
# The program

The program runs on a file tree, so this module only carries the file system into one and back: it
observes the footprint of the command, runs the command on what it saw, makes the changed entries
real, and prints.
-/

namespace WebComponents.CommandLine

open Files

/-- The location that the text of an absolute path without `.` and `..` spells. -/
def locationOf (text : String) : Location :=
  ((Text.split (· == '/') text.toList).filter fun piece => !piece.isEmpty).map String.ofList

/-- The absolute path of a location. -/
def textOf (location : Location) : String :=
  "/" ++ String.intercalate "/" location

/-- The tree in which all locations on the way from `here` along the names are directories. -/
def withDirectories (tree : FileTree) (here : Location) : Location → FileTree
  | [] => tree
  | name :: names => withDirectories (tree.put (here ++ [name]) .directory) (here ++ [name]) names

/-- The location of what is at a path after all links; none if nothing is there. -/
def realLocation? (text : String) : IO (Option Location) := do
  try
    return some (locationOf (← IO.FS.realPath text).toString)
  catch _ =>
    return none

/-- Stands for the content of a file that is not read.  No text has these bytes, so a file that was
written since differs from one that was not. -/
def unreadContent : ByteArray :=
  ⟨#[0xff]⟩

/-- The tree with what is at a location that no link leads on from. -/
def observeAt (reading : Bool) (tree : FileTree) (location : Location) : IO FileTree := do
  let placed := withDirectories tree [] location
  if (← realLocation? (textOf location ++ "/.")).isSome then return placed
  let content ←
    if reading then IO.FS.readBinFile (textOf location)
    else match tree.lookup location with
      | some (.file content) => pure content
      | _ => pure unreadContent
  return placed.put location (.file content)

/-- The tree with everything that a walk along the steps meets. -/
def observe (reading : Bool) (tree : FileTree) (here : Location) :
    List FileTree.Step → IO FileTree
  | [] => return tree
  | .stay :: rest => observe reading tree here rest
  | .slash :: rest => observe reading tree here rest
  | .up :: rest => observe reading tree here.dropLast rest
  | .name name :: rest => do
    let location := here ++ [name]
    match ← realLocation? (textOf location) with
    | none => observe reading tree location rest
    | some real =>
      let seen ← observeAt (reading && rest.isEmpty) tree real
      let linked := if real = location then seen else seen.put location (.link (textOf real))
      observe reading linked real rest

/-- The tree with everything at the paths. -/
def observeAll (reading : Bool) (tree : FileTree) (paths : List Path) : IO FileTree :=
  paths.foldlM (fun seen path =>
    observe reading seen (seen.startOf path) (FileTree.stepsOf path.text.toList)) tree

/-- The part of the file system that a command needs. -/
def observeFootprint (start : FileTree) (command : Command) : IO FileTree := do
  let sources ← observeAll true start command.sources
  observeAll false sources (command.targets sources)

/-- Makes the entries of `after` real that `before` does not have. -/
def makeReal (before after : FileTree) : IO Unit :=
  after.entries.forM fun (location, entry) => do
    if before.lookup location ≠ some entry then
      match entry with
      | .directory => IO.FS.createDir (textOf location)
      | .file content => IO.FS.writeBinFile (textOf location) content
      | .link _ => return

end WebComponents.CommandLine

open WebComponents.CommandLine in
/-- Runs the program with the words after its name. -/
def main (words : List String) : IO UInt32 := do
  let workDir := locationOf (← IO.currentDir).toString
  let start := withDirectories ⟨[], workDir⟩ [] workDir
  let before ← match Invocation.ofWords words with
    | .command command => observeFootprint start command
    | _ => pure start
  let (outcome, after) := run words before
  makeReal before after
  IO.print outcome.output
  IO.eprint outcome.complaint.printed
  return outcome.exitCode.toUInt32
