import WebComponents.Text.Pieces
import WebComponents.Text.Strays

/-!
# Paths

A path is a text whose segments are separated by slashes.  Empty segments and `.` segments say
nothing, except a `.` that opens a relative path.  Two paths with the same segments name the same
file, so `Same` compares segments and not texts.

The paths that come from texts are UTF-8.  A path of the file system need not be; a byte of it that
is no text is written as a stray (`Text.Strays`).  Strays are names like any others here, and only
`slashed`, which makes a text of a path, tells them from the rest.  Messages and reports name a path
as it is, strays and all, and leave it to their readers to show them.

A text falls into its *lead* (`/` for an absolute path, `.` for a relative one that opens with it)
and its *body*, whose pieces between slashes are read one by one:

```text
/a//b/     lead /    pieces  a  ε  b  ε       segments  root a b
./a/../b   lead .    pieces  ε  a  .. b       segments  current a parent b
a/.        lead ε    pieces  a  .             segments  a
```
-/

namespace WebComponents

/-- A file's path, as it is spelled. -/
structure Path where
  text : String
  deriving DecidableEq, Repr, Inhabited

namespace Path

open Text

/-- One step of a path. -/
inductive Segment where
  | root
  | current
  | parent
  | name (text : String)
  deriving DecidableEq, Repr, Inhabited

/-! ## Reading a path -/

/-- The part of the text that opens it: a slash, or a `.` that is a segment of its own. -/
def leadChars : List Char → List Char
  | '/' :: _ => ['/']
  | ['.'] => ['.']
  | '.' :: '/' :: _ => ['.']
  | _ => []

/-- The pieces between slashes after the lead. -/
def bodyPieces (s : List Char) : List (List Char) :=
  split (· == '/') (s.drop (leadChars s).length)

/-- A piece that names no segment. -/
def isVoid (piece : List Char) : Bool :=
  piece.isEmpty || piece == ['.']

/-- The segment that a piece of the body stands for. -/
def segment? (piece : List Char) : Option Segment :=
  if isVoid piece then none
  else if piece = ['.', '.'] then some .parent
  else some (.name (String.ofList piece))

/-- The segment that the lead stands for. -/
def leadSegments (s : List Char) : List Segment :=
  match leadChars s with
  | ['/'] => [.root]
  | ['.'] => [.current]
  | _ => []

/-- The segments of a path, first to last. -/
def segments (path : Path) : List Segment :=
  leadSegments path.text.toList ++ (bodyPieces path.text.toList).filterMap segment?

/-- Two paths with the same segments. -/
def Same (p q : Path) : Prop :=
  p.segments = q.segments

instance : DecidableRel Same := fun p q => inferInstanceAs (Decidable (p.segments = q.segments))

theorem Same.refl (p : Path) : p.Same p := rfl

theorem Same.symm {p q : Path} (h : p.Same q) : q.Same p := Eq.symm h

theorem Same.trans {p q r : Path} (hpq : p.Same q) (hqr : q.Same r) : p.Same r := Eq.trans hpq hqr

/-- A path that starts at the root. -/
def isAbsolute (path : Path) : Bool :=
  path.text.toList.head? == some '/'

/-- Whether the text ends with a slash. -/
def endsWithSlash (path : Path) : Bool :=
  path.text.toList.getLast? == some '/'

/-! ## Parent and last name -/

/-- The pieces without the void ones at the end. -/
def dropVoidEnd : List (List Char) → List (List Char)
  | [] => []
  | piece :: pieces =>
    match dropVoidEnd pieces with
    | [] => if isVoid piece then [] else [piece]
    | kept => piece :: kept

/-- The path without its last segment.  The spelling of what is left stays, up to separators at its
end.  The root and the empty path have no parent; a lone `.` has the empty one. -/
def parent? (path : Path) : Option Path :=
  let s := path.text.toList
  match dropVoidEnd (bodyPieces s) with
  | [] => if leadChars s = ['.'] then some ⟨""⟩ else none
  | pieces => some ⟨String.ofList (leadChars s ++ join '/' (dropVoidEnd pieces.dropLast))⟩

/-- The name that a path ends with. -/
def fileName? (path : Path) : Option String :=
  match path.segments.getLast? with
  | some (.name text) => some text
  | _ => none

/-- The directory that holds the file; the empty path where there is none. -/
def directory (path : Path) : Path :=
  path.parent?.getD ⟨""⟩

/-! ## Building a path -/

/-- The path that leads from `base` along `path`; an absolute path leads away from any base. -/
def join (base path : Path) : Path :=
  if path.isAbsolute then path
  else if base.text.isEmpty || base.endsWithSlash then ⟨base.text ++ path.text⟩
  else ⟨base.text ++ "/" ++ path.text⟩

/-- The text of one segment. -/
def Segment.text : Segment → String
  | .root => "/"
  | .current => "."
  | .parent => ".."
  | .name text => text

/-- The path through the segments in order. -/
def ofSegments (segments : List Segment) : Path :=
  segments.foldl (fun path segment => path.join ⟨segment.text⟩) ⟨""⟩

/-- A character with a backslash turned into a slash. -/
def turned (c : Char) : Char :=
  if c = '\\' then '/' else c

/-- The text that the path is shown as, with forward slashes in place of backslashes. -/
def slashed (path : Path) (strays : Strays := .none) : String :=
  String.ofList ((strays.shown path.text.toList).map turned)

/-- The path from the root that a path read in the directory `base` stands for, with its `..`
segments kept; none for the empty path.  Two slashes at the start stay two, and a slash at the end
stays. -/
def absolute? (path base : Path) : Option Path :=
  let s := path.text.toList
  let start : Path :=
    if !path.isAbsolute then base
    else if ['/', '/'].isPrefixOf s && !(['/', '/', '/'].isPrefixOf s) then ⟨"//"⟩
    else ⟨"/"⟩
  let steps := path.segments.filter fun segment => segment != .root && segment != .current
  let whole := steps.foldl (fun path segment => path.join ⟨segment.text⟩) start
  if path.text.isEmpty then none
  else if path.endsWithSlash then some (whole.join ⟨""⟩)
  else some whole

end Path

end WebComponents
