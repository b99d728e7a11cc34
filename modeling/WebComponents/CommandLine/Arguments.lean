/-!
# Arguments of a command

The words after a command's name are flags with values, and positional words.  A flag is written
long (`--config x`, `--config=x`) or short (`-c x`, `-cx`, `-c=x`); a flag with many values takes
every word up to the next flag.  After `--` all words are positional.  The words are read from left
to right, and the first one that does not fit, or a call for help, decides.
-/

namespace WebComponents.CommandLine

/-- A flag with values. -/
structure Flag where
  long : String
  short? : Option Char
  /-- Whether it takes any number of values, and may be repeated; otherwise it takes one. -/
  many : Bool
  deriving DecidableEq, Repr

/-- What a command accepts: its flags, and how many positional words at most. -/
structure Grammar where
  flags : List Flag
  limit? : Option Nat

/-- The words of a command: the positional ones, and the values of each use of a flag. -/
structure Arguments where
  positionals : List String
  uses : List (Flag × List String)
  deriving DecidableEq, Repr

/-- What the words of a command amount to. -/
inductive Reading where
  | arguments (arguments : Arguments)
  /-- A call for help after these words. -/
  | help (before : Arguments)
  | unusable

/-- The words read so far, latest first. -/
structure Progress where
  positionals : List String
  uses : List (Flag × List String)
  /-- A flag that may take the next word, with its values so far. -/
  open? : Option (Flag × List String)
  /-- Whether all further words are positional. -/
  positionalOnly : Bool

namespace Progress

/-- Nothing read yet. -/
def start : Progress := ⟨[], [], none, false⟩

/-- The progress after a use of a flag. -/
def use? (progress : Progress) (flag : Flag) (values : List String) : Option Progress :=
  let repeated := progress.uses.any fun (other, _) => other.long == flag.long
  if flag.many then some { progress with uses := (flag, values) :: progress.uses }
  else if values.length = 1 ∧ !repeated then
    some { progress with uses := (flag, values) :: progress.uses }
  else none

/-- The progress after the open flag is over. -/
def close? (progress : Progress) : Option Progress :=
  match progress.open? with
  | none => some progress
  | some (flag, values) => { progress with open? := none }.use? flag values.reverse

/-- The words read. -/
def arguments? (progress : Progress) : Option Arguments := do
  let closed ← progress.close?
  return ⟨closed.positionals.reverse, closed.uses.reverse⟩

/-- The progress after one more positional word. -/
def addPositional? (grammar : Grammar) (progress : Progress) (word : String) :
    Option Progress := do
  let closed ← progress.close?
  let fits := match grammar.limit? with
    | none => true
    | some limit => closed.positionals.length < limit
  if fits then some { closed with positionals := word :: closed.positionals } else none

/-- The progress after a flag without an attached value. -/
def openFlag? (progress : Progress) (flag : Flag) : Option Progress := do
  return { ← progress.close? with open? := some (flag, []) }

/-- The progress after a flag with an attached value. -/
def attach? (progress : Progress) (flag : Flag) (value : String) : Option Progress := do
  (← progress.close?).use? flag [value]

end Progress

/-- What a single word does. -/
inductive Effect where
  | go (progress : Progress)
  | help
  | unusable

/-- The effect of a step that may be impossible. -/
def Effect.ofOption : Option Progress → Effect
  | some progress => .go progress
  | none => .unusable

/-- The effect of a word that starts with two dashes, from what follows them. -/
def longEffect (grammar : Grammar) (progress : Progress) (s : List Char) : Effect :=
  let name := String.ofList (s.takeWhile (· != '='))
  let value? := (s.dropWhile (· != '=')).tail?
  match grammar.flags.find? (·.long == name), value? with
  | some flag, none => .ofOption (progress.openFlag? flag)
  | some flag, some value => .ofOption (progress.attach? flag (String.ofList value))
  | none, none => if name = "help" then .help else .unusable
  | none, some _ => .unusable

/-- The effect of a word that starts with one dash, from the letter that follows and the rest. -/
def shortEffect (grammar : Grammar) (progress : Progress) (letter : Char) (rest : List Char) :
    Effect :=
  match grammar.flags.find? (·.short? == some letter), rest with
  | some flag, [] => .ofOption (progress.openFlag? flag)
  | some flag, '=' :: value => .ofOption (progress.attach? flag (String.ofList value))
  | some flag, value => .ofOption (progress.attach? flag (String.ofList value))
  | none, _ => if letter = 'h' then .help else .unusable

/-- The effect of a word that is no flag. -/
def plainEffect (grammar : Grammar) (progress : Progress) (word : String) : Effect :=
  match progress.open? with
  | none => .ofOption (progress.addPositional? grammar word)
  | some (flag, values) =>
    -- a flag with one value is over as soon as it has it
    let opened := { progress with open? := some (flag, word :: values) }
    if flag.many then .go opened else .ofOption opened.close?

/-- The effect of a word. -/
def effect (grammar : Grammar) (progress : Progress) (word : String) : Effect :=
  if progress.positionalOnly then .ofOption (progress.addPositional? grammar word)
  else
    match word.toList with
    | ['-', '-'] => .go { progress with positionalOnly := true }
    | '-' :: '-' :: s => longEffect grammar progress s
    | '-' :: letter :: rest => shortEffect grammar progress letter rest
    | _ => plainEffect grammar progress word

/-- Reads words after some that are read already. -/
def readFrom (grammar : Grammar) (progress : Progress) : List String → Reading
  | [] =>
    match progress.arguments? with
    | some arguments => .arguments arguments
    | none => .unusable
  | word :: words =>
    match effect grammar progress word with
    | .go next => readFrom grammar next words
    | .unusable => .unusable
    | .help =>
      match progress.arguments? with
      | some arguments => .help arguments
      | none => .unusable

/-- Reads the words of a command. -/
def Grammar.read (grammar : Grammar) (words : List String) : Reading :=
  readFrom grammar .start words

/-- The values of all uses of a flag; none if it is not used. -/
def Arguments.values? (arguments : Arguments) (long : String) : Option (List String) :=
  match arguments.uses.filter fun (flag, _) => flag.long == long with
  | [] => none
  | uses => some (uses.flatMap (·.2))

end WebComponents.CommandLine
