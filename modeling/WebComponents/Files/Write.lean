import WebComponents.Files.FileTree
import WebComponents.Files.Problem

/-!
# Writing generated files

A generated file is written together with the directories above it.  It either replaces what is
there or, if it is to be created once, is left alone when its path already stands for something.  A
write consists of three steps, a look, the making of directories and the write of the content, and
each is an operation of the tree.  In a batch every file has its own outcome, in the order of the
batch.
-/

namespace WebComponents.Files

/-- What to do about a file that is already there. -/
inductive Overwrite where
  | always
  | ifMissing
  deriving DecidableEq, Repr

/-- A file to be written. -/
structure GeneratedFile where
  path : Path
  content : String
  overwrite : Overwrite
  deriving DecidableEq, Repr

/-- What became of a file. -/
inductive WriteResult where
  | written
  | skipped
  deriving DecidableEq, Repr

/-- What became of a file of a batch. -/
structure WriteOutcome where
  path : Path
  result : Except Problem WriteResult

/-- Whether the file was written. -/
def WriteOutcome.isWritten (outcome : WriteOutcome) : Bool :=
  match outcome.result with
  | .ok .written => true
  | _ => false

/-- Makes the directories above a path. -/
def createParents (tree : FileTree) (path : Path) : Except Problem Unit × FileTree :=
  match path.parent? with
  | none => (.ok (), tree)
  | some above =>
    let (result, made) := tree.createDirectories above
    (result.mapError fun cause => ⟨.createDirectory, above, cause⟩, made)

/-- Writes the content of a file whose directory is there. -/
def writeContent (tree : FileTree) (path : Path) (content : String) :
    Except Problem Unit × FileTree :=
  match tree.writeText path content with
  | .ok written => (.ok (), written)
  | .error cause => (.error ⟨.write, path, cause⟩, tree)

/-- Writes a file together with the directories above it. -/
def writeThrough (tree : FileTree) (path : Path) (content : String) :
    Except Problem Unit × FileTree :=
  match createParents tree path with
  | (.ok (), made) => writeContent made path content
  | (.error problem, made) => (.error problem, made)

/-- Writes a generated file by its rule. -/
def GeneratedFile.write (file : GeneratedFile) (tree : FileTree) :
    Except Problem WriteResult × FileTree :=
  if file.overwrite = .ifMissing ∧ tree.holds file.path then
    (.ok .skipped, tree)
  else
    let (result, written) := writeThrough tree file.path file.content
    (result.map fun _ => .written, written)

/-- Writes the files of a batch, whatever becomes of the others. -/
def writeAll (tree : FileTree) : List GeneratedFile → List WriteOutcome × FileTree
  | [] => ([], tree)
  | file :: files =>
    let (result, written) := file.write tree
    let (outcomes, final) := writeAll written files
    (⟨file.path, result⟩ :: outcomes, final)

end WebComponents.Files
