import WebComponents.Json.Scalar

/-!
# JSON documents

A text is cut into tokens, and the tokens are read into a tree.  Both steps take any text: where it
stops being JSON the tree ends in a fault (`Scalar.broken` or `Ending.broken`), and all that was
open around that place ends there too.  So the tree holds everything that a reader going from left
to right can see before it meets the fault, and which of two problems comes first is a question
about the tree.

The reader of the tree is a machine with one step per token (`Reading.step`).  Its state names what
may come next and keeps the arrays and objects that are still open.
-/

namespace WebComponents.Json

/-! ## Tokens -/

/-- A bracket, a separator or a scalar. -/
inductive Token where
  | openArray
  | closeArray
  | openObject
  | closeObject
  | comma
  | colon
  | scalar (scalar : Scalar)
  deriving DecidableEq, Repr

/-- The blanks that may stand between tokens. -/
def isSpace (c : Char) : Bool :=
  c == ' ' || c == '\n' || c == '\t' || c == '\r'

/-- The token that is a single character. -/
def markToken? : Char → Option Token
  | '[' => some .openArray
  | ']' => some .closeArray
  | '\x7b' => some .openObject
  | '\x7d' => some .closeObject
  | ',' => some .comma
  | ':' => some .colon
  | _ => none

/-- The tokens of a text, up to the first scalar that is not whole. -/
def tokens : List Char → List Token
  | [] => []
  | c :: rest =>
    if isSpace c then
      tokens rest
    else
      match markToken? c with
      | some token => token :: tokens rest
      | none =>
        if (scanScalar c rest).1.isWhole then
          .scalar (scanScalar c rest).1 :: tokens (scanScalar c rest).2
        else
          [.scalar (scanScalar c rest).1]
termination_by s => s.length
decreasing_by
  all_goals
    have hscan := scanScalar_length c rest
    simp only [List.length_cons]
    omega

/-! ## Trees -/

/-- How an array or an object ends. -/
inductive Ending where
  | closed
  | broken (fault : Fault)
  deriving DecidableEq, Repr

/-- A JSON value as it is spelled, members in order and repeated keys kept. -/
inductive Node where
  | scalar (scalar : Scalar)
  | array (items : List Node) (ending : Ending)
  | object (members : List (StringLiteral × Node)) (ending : Ending)
  deriving Repr

/-- A value, and whether more than blanks follows it. -/
structure Document where
  root : Node
  trailing : Bool

/-! ## Reading tokens -/

/-- A container that waits for the value that comes next, with its parts so far, latest first. -/
inductive Frame where
  | array (items : List Node)
  | member (members : List (StringLiteral × Node)) (key : StringLiteral)

/-- What may come next, and the containers around that place, innermost first. -/
inductive Reading where
  | value (outer : List Frame)
  | firstItem (outer : List Frame)
  | afterItem (items : List Node) (outer : List Frame)
  | firstKey (outer : List Frame)
  | nextKey (members : List (StringLiteral × Node)) (outer : List Frame)
  | afterKey (members : List (StringLiteral × Node)) (key : StringLiteral) (outer : List Frame)
  | afterMember (members : List (StringLiteral × Node)) (outer : List Frame)
  | done (document : Document)

namespace Reading

/-- The state after a value has been read where one was due. -/
def place (value : Node) : List Frame → Reading
  | [] => .done ⟨value, false⟩
  | .array items :: outer => .afterItem (value :: items) outer
  | .member members key :: outer => .afterMember ((key, value) :: members) outer

/-- The tree in which the containers around a value end with a fault right after it. -/
def enclose (fault : Fault) (value : Node) : List Frame → Node
  | [] => value
  | .array items :: outer =>
    enclose fault (.array (value :: items).reverse (.broken fault)) outer
  | .member members key :: outer =>
    enclose fault (.object ((key, value) :: members).reverse (.broken fault)) outer

/-- The tree of what has been read, ended by a fault. -/
def stop (fault : Fault) : Reading → Document
  | .value outer => ⟨enclose fault (.scalar (.broken fault)) outer, false⟩
  | .firstItem outer => ⟨enclose fault (.array [] (.broken fault)) outer, false⟩
  | .afterItem items outer => ⟨enclose fault (.array items.reverse (.broken fault)) outer, false⟩
  | .firstKey outer => ⟨enclose fault (.object [] (.broken fault)) outer, false⟩
  | .nextKey members outer | .afterMember members outer =>
    ⟨enclose fault (.object members.reverse (.broken fault)) outer, false⟩
  | .afterKey members key outer =>
    ⟨enclose fault (.object ((key, .scalar (.broken fault)) :: members).reverse (.broken fault))
      outer, false⟩
  | .done document => document

/-- The state after the first token of a value. -/
def begin (outer : List Frame) : Token → Reading
  | .scalar scalar => place (.scalar scalar) outer
  | .openArray => .firstItem outer
  | .openObject => .firstKey outer
  | _ => .done (stop .malformed (.value outer))

/-- The state after one more token. -/
def step : Reading → Token → Reading
  | .value outer, token => begin outer token
  | .firstItem outer, .closeArray => place (.array [] .closed) outer
  | .firstItem outer, token => begin (.array [] :: outer) token
  | .afterItem items outer, .comma => .value (.array items :: outer)
  | .afterItem items outer, .closeArray => place (.array items.reverse .closed) outer
  | .firstKey outer, .closeObject => place (.object [] .closed) outer
  | .firstKey outer, .scalar (.string key) => .afterKey [] key outer
  | .nextKey members outer, .scalar (.string key) => .afterKey members key outer
  | .afterKey members key outer, .colon => .value (.member members key :: outer)
  | .afterMember members outer, .comma => .nextKey members outer
  | .afterMember members outer, .closeObject => place (.object members.reverse .closed) outer
  | .done document, _ => .done { document with trailing := true }
  | reading, _ => .done (stop .malformed reading)

end Reading

/-- The document that a text spells, with the fault in its place if it is not JSON. -/
def Document.ofText (text : String) : Document :=
  ((tokens text.toList).foldl Reading.step (.value [])).stop .unfinished

end WebComponents.Json
