/-!
# Numbered names

All types of a project are exported side by side, so two of the same name need two export names.
The table counts how often each name was asked for: the first time the name itself is handed out,
and the `k`-th time the name with `k - 1` after it.  Names are counted apart; the table does not
know that `Size1` may also be asked for by itself.

Counts have no bound.  In a machine word a count would come back to zero after `2 ^ 64` requests,
and the name itself would be handed out again; what holds here of a table holds there as long as no
name was asked for that often.
-/

namespace WebComponents.Exports

/-- How often each name was handed out. -/
structure NameCounts where
  entries : List (String × Nat)
  deriving DecidableEq, Repr

namespace NameCounts

/-- The table before any name is handed out. -/
def empty : NameCounts := ⟨[]⟩

/-- The count that the entries hold for a name. -/
def countIn (name : String) : List (String × Nat) → Nat
  | [] => 0
  | entry :: entries => if entry.1 = name then entry.2 else countIn name entries

/-- The entries with one more for a name. -/
def bumpIn (name : String) : List (String × Nat) → List (String × Nat)
  | [] => [(name, 1)]
  | entry :: entries =>
    if entry.1 = name then (name, entry.2 + 1) :: entries else entry :: bumpIn name entries

/-- How often a name was handed out. -/
def count (counts : NameCounts) (name : String) : Nat :=
  countIn name counts.entries

/-- The table after a name was handed out once more. -/
def bump (counts : NameCounts) (name : String) : NameCounts :=
  ⟨bumpIn name counts.entries⟩

theorem countIn_bumpIn (name other : String) (entries : List (String × Nat)) :
    countIn other (bumpIn name entries) =
      if name = other then countIn other entries + 1 else countIn other entries := by
  induction entries with
  | nil => simp [bumpIn, countIn]
  | cons entry entries ih =>
      by_cases hname : entry.1 = name <;> by_cases hother : name = other <;>
        simp_all [bumpIn, countIn]

/-- Handing out a name counts for that name alone. -/
theorem count_bump (counts : NameCounts) (name other : String) :
    (counts.bump name).count other =
      if name = other then counts.count other + 1 else counts.count other :=
  countIn_bumpIn name other counts.entries

/-- The name that is handed out after `n` times. -/
def numbered (name : String) (n : Nat) : String :=
  if n = 0 then name else name ++ toString n

/-- The name to hand out next, and the table after that. -/
def next (counts : NameCounts) (name : String) : String × NameCounts :=
  (numbered name (counts.count name), counts.bump name)

end NameCounts

end WebComponents.Exports
