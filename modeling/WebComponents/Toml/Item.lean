/-!
# TOML documents

A document is a table of items by key.  It is built from statements, and how a table came about
decides what may be added to it later:

```text
header     [a.b]           may get tables below it, and no second header
implied    the a of [a.b]  may still get its own header
dotted     the a of a.b=1  may get more keys in the same place, and tables below it
inline     a = {…}         is finished
```

Tables that are given one by one, `[[a]]`, are extended in the latest one.
-/

namespace WebComponents.Toml

/-- How a table came about. -/
inductive Origin where
  | header
  | implied
  | dotted
  | inline
  deriving DecidableEq, Repr

/-- A value of a document. -/
inductive Item where
  | string (text : String)
  | boolean (value : Bool)
  | integer (value : Int)
  /-- A floating-point number, and whether it is too large for one. -/
  | float (tooLarge : Bool)
  /-- A date, a time or both. -/
  | moment
  | array (items : List Item)
  | table (origin : Origin) (entries : List (String × Item))
  /-- Tables that are given one by one, the latest first. -/
  | tables (latestFirst : List (List (String × Item)))
  deriving Repr

/-- The entries of a table, in order. -/
abbrev Entries := List (String × Item)

namespace Entries

/-- The item under a key. -/
def get? (key : String) : Entries → Option Item
  | [] => none
  | entry :: entries => if entry.1 = key then some entry.2 else get? key entries

/-- The entries with another item under a key. -/
def set (key : String) (item : Item) : Entries → Entries
  | [] => [(key, item)]
  | entry :: entries =>
    if entry.1 = key then (key, item) :: entries else entry :: set key item entries

/-- The entries with a new item under a dotted key; none if the key is taken, or if it leads through
a table that may not be added to in this way. -/
def define (item : Item) : List String → Entries → Option Entries
  | [], _ => none
  | [key], entries => if (get? key entries).isSome then none else some (set key item entries)
  | key :: next :: rest, entries =>
    match get? key entries with
    | none => return set key (.table .dotted (← define item (next :: rest) [])) entries
    | some (.table .dotted inner) =>
      return set key (.table .dotted (← define item (next :: rest) inner)) entries
    | some (.table .implied inner) =>
      -- a key cannot go straight into a table that only a header may open
      if rest.isEmpty then none
      else return set key (.table .implied (← define item (next :: rest) inner)) entries
    | some (.tables (latest :: earlier)) =>
      -- nor into the latest of several tables, but into a table below that one
      if rest.isEmpty then none
      else return set key (.tables ((← define item (next :: rest) latest) :: earlier)) entries
    | some _ => none

/-- The entries after the item under a header's path has been changed; tables on the way are implied
where they are missing. -/
def change (update : Option Item → Option Item) : List String → Entries → Option Entries
  | [], _ => none
  | [key], entries => return set key (← update (get? key entries)) entries
  | key :: next :: rest, entries =>
    match get? key entries with
    | none => return set key (.table .implied (← change update (next :: rest) [])) entries
    | some (.table .inline _) => none
    | some (.table origin inner) =>
      return set key (.table origin (← change update (next :: rest) inner)) entries
    -- a header below several tables speaks of the latest of them
    | some (.tables (latest :: earlier)) =>
      return set key (.tables ((← change update (next :: rest) latest) :: earlier)) entries
    | some _ => none

/-- The entries with further ones under dotted keys. -/
def defineAll (pairs : List (List String × Item)) (entries : Entries) : Option Entries :=
  pairs.foldlM (fun entries (path, item) => define item path entries) entries

end Entries

/-! ## Statements -/

/-- A statement of a document: a header of a table or of one of several tables, or a key with its
value. -/
inductive Statement where
  | header (path : List String)
  | arrayHeader (path : List String)
  | pair (path : List String) (item : Item)
  deriving Repr

/-- The pairs up to the next header, and the statements from there on. -/
def leadingPairs : List Statement → List (List String × Item) × List Statement
  | .pair path item :: rest =>
    let (pairs, after) := leadingPairs rest
    ((path, item) :: pairs, after)
  | rest => ([], rest)

theorem leadingPairs_length (statements : List Statement) :
    (leadingPairs statements).2.length ≤ statements.length := by
  fun_induction leadingPairs statements with
  | case1 path item rest pairs after heq ih =>
      simp only [heq] at ih
      simp only [List.length_cons]
      omega
  | case2 => exact Nat.le_refl _

/-- The table that a header opens, with the pairs below the header. -/
def openTable (pairs : List (List String × Item)) : Option Item → Option Item
  | none => return .table .header (← Entries.defineAll pairs [])
  | some (.table .implied entries) => return .table .header (← Entries.defineAll pairs entries)
  | some _ => none

/-- The tables to which a header adds one, with the pairs below the header. -/
def addTable (pairs : List (List String × Item)) : Option Item → Option Item
  | none => return .tables [← Entries.defineAll pairs []]
  | some (.tables tables) => return .tables ((← Entries.defineAll pairs []) :: tables)
  | some _ => none

/-- The entries after the statements, which start with a header. -/
def build (entries : Entries) : List Statement → Option Entries
  | [] => some entries
  | .header path :: rest => do
    build (← Entries.change (openTable (leadingPairs rest).1) path entries) (leadingPairs rest).2
  | .arrayHeader path :: rest => do
    build (← Entries.change (addTable (leadingPairs rest).1) path entries) (leadingPairs rest).2
  | .pair _ _ :: _ => none
termination_by statements => statements.length
decreasing_by
  all_goals
    have hrest := leadingPairs_length rest
    simp only [List.length_cons]
    omega

/-- The table that the statements of a document make. -/
def ofStatements (statements : List Statement) : Option Entries := do
  let (pairs, rest) := leadingPairs statements
  build (← Entries.defineAll pairs []) rest

end WebComponents.Toml
