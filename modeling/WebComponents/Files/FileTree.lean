import WebComponents.Files.SystemError
import WebComponents.Path.Ancestors

/-!
# The file tree

A file tree holds directories, regular files and symbolic links.  Each has a *location*, the names
that lead to it from the root; the root itself is always a directory.  A *path* is what a program
says, and `walk` finds the location that it stands for: every step must be made from a directory,
`..` goes to the directory above the one that was reached, and a symbolic link is replaced by its
target, at most forty times.

The operations below are the few that a program asks the system for.  Each of them either changes
the tree at one location or leaves it as it is and tells why.
-/

namespace WebComponents.Files

/-- The names that lead to a place from the root. -/
abbrev Location := List String

/-- What is found at a location. -/
inductive Entry where
  | directory
  | file (content : ByteArray)
  | link (target : String)

instance : DecidableEq Entry
  | .directory, .directory => isTrue rfl
  | .file a, .file b =>
    match ByteArray.instDecidableEq a b with
    | isTrue h => isTrue (congrArg Entry.file h)
    | isFalse h => isFalse fun same => h (Entry.file.inj same)
  | .link a, .link b =>
    match instDecidableEqString a b with
    | isTrue h => isTrue (congrArg Entry.link h)
    | isFalse h => isFalse fun same => h (Entry.link.inj same)
  | .directory, .file _ | .directory, .link _ | .file _, .directory | .file _, .link _
  | .link _, .directory | .link _, .file _ => isFalse nofun

/-- The entries of a file system below its root, and the directory in which relative paths are
read. -/
structure FileTree where
  entries : List (Location × Entry)
  workDir : Location

namespace FileTree

/-! ## Locations -/

/-- What the entries hold at a location. -/
def lookupIn (location : Location) : List (Location × Entry) → Option Entry
  | [] => none
  | pair :: pairs => if pair.1 = location then some pair.2 else lookupIn location pairs

/-- The entries with another one at a location. -/
def putIn (location : Location) (entry : Entry) :
    List (Location × Entry) → List (Location × Entry)
  | [] => [(location, entry)]
  | pair :: pairs =>
    if pair.1 = location then (location, entry) :: pairs else pair :: putIn location entry pairs

/-- What is at a location. -/
def lookup (tree : FileTree) (location : Location) : Option Entry :=
  if location = [] then some .directory else lookupIn location tree.entries

/-- The tree with another entry at a location below the root. -/
def put (tree : FileTree) (location : Location) (entry : Entry) : FileTree :=
  { tree with entries := putIn location entry tree.entries }

/-- The tree without a location and everything below it. -/
def remove (tree : FileTree) (location : Location) : FileTree :=
  { tree with entries := tree.entries.filter fun pair => !location.isPrefixOf pair.1 }

theorem mem_of_lookupIn_eq_some {location : Location} {entry : Entry}
    {pairs : List (Location × Entry)}
    (h : lookupIn location pairs = some entry) : (location, entry) ∈ pairs := by
  induction pairs with
  | nil => cases h
  | cons pair pairs ih =>
      unfold lookupIn at h
      split at h
      · rename_i hpair
        cases h
        rw [← hpair]
        exact List.mem_cons_self
      · exact List.mem_cons_of_mem _ (ih h)

theorem lookupIn_putIn (location other : Location) (entry : Entry)
    (pairs : List (Location × Entry)) :
    lookupIn other (putIn location entry pairs) =
      if location = other then some entry else lookupIn other pairs := by
  induction pairs with
  | nil => simp [putIn, lookupIn]
  | cons pair pairs ih =>
      unfold putIn
      split
      · rename_i h
        by_cases hother : location = other
        · simp [lookupIn, hother]
        · simp [lookupIn, hother, h]
      · rename_i h
        by_cases hother : location = other
        · subst hother
          simp [lookupIn, h, ih]
        · simp [lookupIn, hother, ih]

/-- Putting an entry changes what is at its location, and nothing else. -/
theorem lookup_put (tree : FileTree) (location other : Location) (entry : Entry)
    (h : other ≠ []) :
    (tree.put location entry).lookup other =
      if location = other then some entry else tree.lookup other := by
  simp [lookup, put, h, lookupIn_putIn]

/-! ## From paths to locations -/

/-- A step of a path as the system takes it. -/
inductive Step where
  /-- A `.`. -/
  | stay
  /-- A `..`. -/
  | up
  | name (text : String)
  /-- The slash after a name at the end of a path. -/
  | slash
  deriving DecidableEq, Repr

/-- The step that a non-empty piece of a path stands for. -/
def stepOf (piece : List Char) : Step :=
  if piece = ['.'] then .stay
  else if piece = ['.', '.'] then .up
  else .name (String.ofList piece)

/-- The steps of a path. -/
def stepsOf (s : List Char) : List Step :=
  let steps := ((Text.split (· == '/') s).filter fun piece => !piece.isEmpty).map stepOf
  match steps.getLast? with
  | some (.name _) => if s.getLast? = some '/' then steps ++ [.slash] else steps
  | _ => steps

/-- Where a walk ends. -/
inductive Spot where
  | found (location : Location)
  /-- Nothing is there yet, but its directory is. -/
  | vacant (directory : Location) (name : String)
  deriving DecidableEq, Repr

/-- The longest name that a directory can hold, in bytes. -/
def maxNameLength : Nat := 255

/-- The length, in bytes, at which a path is too long. -/
def maxPathLength : Nat := 4096

/-- The number of symbolic links that a walk may follow. -/
def maxLinks : Nat := 40

/-- Follows steps from a directory, with so many links left to follow.  A walk to a file that is to
be created (`creating`) must not end with a slash. -/
def walk (tree : FileTree) (creating : Bool) (links : Nat) (here : Location) :
    List Step → Except SystemError Spot
  | [] => .ok (.found here)
  | .stay :: rest => tree.walk creating links here rest
  | .slash :: rest => tree.walk creating links here rest
  | .up :: rest => tree.walk creating links here.dropLast rest
  | .name name :: rest =>
    -- only a directory could have this name, and no directory is created here
    if creating ∧ rest = [.slash] then .error .isADirectory
    else if maxNameLength < name.utf8ByteSize then .error .nameTooLong
    else
      match tree.lookup (here ++ [name]) with
      | none => if rest = [] then .ok (.vacant here name) else .error .notFound
      | some .directory => tree.walk creating links (here ++ [name]) rest
      | some (.file _) => if rest = [] then .ok (.found (here ++ [name])) else .error .notADirectory
      | some (.link target) =>
        match links with
        | 0 => .error .tooManyLinks
        | left + 1 =>
          -- the target is read in the directory of the link, not in the one where the walk began
          let start := if target.toList.head? = some '/' then [] else here
          tree.walk creating left start (stepsOf target.toList ++ rest)
termination_by steps => (links, steps.length)

/-- Whether the system takes a text as a path at all. -/
def checkPath (path : Path) : Except SystemError Unit :=
  if path.text = "" then .error .notFound
  else if path.text.contains '\x00' then .error .nulCharacter
  else if maxPathLength ≤ path.text.utf8ByteSize then .error .nameTooLong
  else .ok ()

/-- The directory in which a path is read. -/
def startOf (tree : FileTree) (path : Path) : Location :=
  if path.isAbsolute then [] else tree.workDir

/-- The spot that a path stands for. -/
def spotOf (tree : FileTree) (creating : Bool) (path : Path) : Except SystemError Spot := do
  checkPath path
  tree.walk creating maxLinks (tree.startOf path) (stepsOf path.text.toList)

/-- The entry that a path stands for. -/
def entryOf (tree : FileTree) (path : Path) : Except SystemError Entry := do
  match ← tree.spotOf false path with
  | .vacant _ _ => .error .notFound
  | .found location =>
    match tree.lookup location with
    | none => .error .notFound
    | some entry => .ok entry

/-! ## Looking -/

/-- Whether a path stands for something. -/
def holds (tree : FileTree) (path : Path) : Bool :=
  (tree.entryOf path).isOk

/-- Whether a path stands for a directory. -/
def isDirectory (tree : FileTree) (path : Path) : Bool :=
  match tree.entryOf path with
  | .ok .directory => true
  | _ => false

/-- The bytes of a file. -/
def readBytes (tree : FileTree) (path : Path) : Except SystemError ByteArray := do
  match ← tree.entryOf path with
  | .file content => .ok content
  | _ => .error .isADirectory

/-- The text of a file. -/
def readText (tree : FileTree) (path : Path) : Except SystemError String := do
  match String.fromUTF8? (← tree.readBytes path) with
  | some text => .ok text
  | none => .error .notText

/-! ## Writing -/

/-- The tree in which the file at a path has the given content; a file that is not there yet is
created in its directory. -/
def writeBytes (tree : FileTree) (path : Path) (content : ByteArray) :
    Except SystemError FileTree := do
  match ← tree.spotOf true path with
  | .vacant directory name => .ok (tree.put (directory ++ [name]) (.file content))
  | .found location =>
    match tree.lookup location with
    | some (.file _) => .ok (tree.put location (.file content))
    | _ => .error .isADirectory

/-- The tree in which the file at a path has the given text. -/
def writeText (tree : FileTree) (path : Path) (text : String) : Except SystemError FileTree :=
  tree.writeBytes path text.toUTF8

/-- The steps of a path without a slash at the end. -/
def entrySteps (path : Path) : List Step :=
  (stepsOf path.text.toList).filter (· ≠ .slash)

/-- The tree with a new entry at a path where nothing is, not even a link.  The directory it goes to
has to be there. -/
def create (tree : FileTree) (path : Path) (entry : Entry) : Except SystemError FileTree := do
  checkPath path
  match (entrySteps path).getLast? with
  | some (.name name) =>
    match ←
        tree.walk false maxLinks (tree.startOf path) ((entrySteps path).dropLast ++ [.stay]) with
    | .vacant _ _ => .error .notFound
    | .found directory =>
      if maxNameLength < name.utf8ByteSize then .error .nameTooLong
      else if (tree.lookup (directory ++ [name])).isSome then .error .alreadyExists
      else .ok (tree.put (directory ++ [name]) entry)
  | _ =>
    let _ ← tree.walk false maxLinks (tree.startOf path) (entrySteps path)
    .error .alreadyExists

/-- The tree with a new directory. -/
def makeDirectory (tree : FileTree) (path : Path) : Except SystemError FileTree :=
  tree.create path .directory

/-- Makes the first of the directories, each of which is the parent of the one before it, and as
many of the others as are missing.  The tree keeps what was made before a failure. -/
def makeDirectories (tree : FileTree) : List Path → Except SystemError Unit × FileTree
  | [] => (.ok (), tree)
  | path :: above =>
    match tree.makeDirectory path with
    | .ok made => (.ok (), made)
    -- only now is it known that a directory above is missing
    | .error .notFound =>
      match tree.makeDirectories above with
      | (.error error, made) => (.error error, made)
      | (.ok (), made) =>
        match made.makeDirectory path with
        | .ok final => (.ok (), final)
        | .error error => (if made.isDirectory path then .ok () else .error error, made)
    | .error error => (if tree.isDirectory path then .ok () else .error error, tree)

/-- Makes a directory and all directories above it that are missing. -/
def createDirectories (tree : FileTree) (path : Path) : Except SystemError Unit × FileTree :=
  if path.text = "" then (.ok (), tree) else tree.makeDirectories path.ancestors

/-- The working directory as a path. -/
def workPath (tree : FileTree) : Path :=
  ⟨"/" ++ String.intercalate "/" tree.workDir⟩

end FileTree

end WebComponents.Files
