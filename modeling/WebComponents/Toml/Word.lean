import WebComponents.Text.Pieces
import WebComponents.Toml.Item

/-!
# TOML words

A value that is neither quoted nor bracketed is a word: a truth value, a number, a date or a time.
A word has to be one of these as a whole.
-/

namespace WebComponents.Toml

open Text

/-! ## Numbers -/

/-- The digits of a run in which single underscores may stand between digits. -/
def digitRun? (isDigit : Char → Bool) (s : List Char) : Option (List Char) :=
  let pieces := split (· == '_') s
  if pieces.all fun piece => !piece.isEmpty && piece.all isDigit then some pieces.flatten else none

/-- Hexadecimal digits. -/
def isHexDigit (c : Char) : Bool :=
  c.isDigit || ('a' ≤ c && c ≤ 'f') || ('A' ≤ c && c ≤ 'F')

/-- The value of a digit in any base up to sixteen. -/
def digitValue (c : Char) : Nat :=
  if c.isDigit then c.toNat - '0'.toNat else c.toLower.toNat - 'a'.toNat + 10

/-- The number that digits spell in a base. -/
def numberIn (base : Nat) (digits : List Char) : Nat :=
  digits.foldl (fun n c => n * base + digitValue c) 0

/-- A sign (`true` for minus) and what follows it. -/
def splitSign : List Char → Bool × List Char
  | '+' :: rest => (false, rest)
  | '-' :: rest => (true, rest)
  | rest => (false, rest)

/-- The digits of a decimal integer without a sign, which starts with a zero only if that is all. -/
def decimalDigits? (s : List Char) : Option (List Char) := do
  let digits ← digitRun? Char.isDigit s
  if s.head? = some '0' ∧ s ≠ ['0'] then none else some digits

/-- An integer. -/
def integer? : List Char → Option Int
  | '0' :: 'x' :: digits => return (numberIn 16 (← digitRun? isHexDigit digits) : Nat)
  | '0' :: 'o' :: digits =>
    return (numberIn 8 (← digitRun? (fun c => '0' ≤ c && c ≤ '7') digits) : Nat)
  | '0' :: 'b' :: digits =>
    return (numberIn 2 (← digitRun? (fun c => c == '0' || c == '1') digits) : Nat)
  | s => do
    let (negative, digits) := splitSign s
    let n := numberIn 10 (← decimalDigits? digits)
    return if negative then -(n : Int) else n

/-- Whether the number with the given digits, times a power of ten, is too large for a
floating-point number. -/
def isTooLarge (digits : List Char) (power : Int) : Bool :=
  let n := numberIn 10 digits
  let length := (toString n).length + power
  if n = 0 ∨ length < 300 then false
  else if 320 < length then true
  else (Float.ofScientific n (power < 0) power.natAbs).isInf

/-- A power of ten: its letter is read already. -/
def power? (s : List Char) : Option Int := do
  let (negative, digits) := splitSign s
  let n := numberIn 10 (← digitRun? Char.isDigit digits)
  return if negative then -(n : Int) else n

/-- A floating-point number. -/
def float? (s : List Char) : Option Item := do
  let (_, body) := splitSign s
  if body = ['i', 'n', 'f'] ∨ body = ['n', 'a', 'n'] then
    return .float false
  let mantissa := body.takeWhile fun c => c != 'e' && c != 'E'
  let power ← match body.drop mantissa.length with
    | [] => some none
    | _ :: digits => some <$> power? digits
  match split (· == '.') mantissa, power with
  | [whole], some power =>
    return .float (isTooLarge (← decimalDigits? whole) power)
  | [whole, fraction], power =>
    let digits ← digitRun? Char.isDigit fraction
    return .float (isTooLarge ((← decimalDigits? whole) ++ digits) (power.getD 0 - digits.length))
  | _, _ => none

/-! ## Dates and times -/

/-- A number of so many decimal digits. -/
def fixedNumber? (length : Nat) (s : List Char) : Option Nat :=
  if s.length = length ∧ s.all Char.isDigit then some (numberIn 10 s) else none

/-- The number of days of a month. -/
def daysOfMonth (year month : Nat) : Nat :=
  if month = 2 then
    if (year % 4 = 0 ∧ year % 100 ≠ 0) ∨ year % 400 = 0 then 29 else 28
  else if month = 4 ∨ month = 6 ∨ month = 9 ∨ month = 11 then 30
  else 31

/-- Whether the text is a date. -/
def isDate (s : List Char) : Bool :=
  match split (· == '-') s with
  | [year, month, day] =>
    match fixedNumber? 4 year, fixedNumber? 2 month, fixedNumber? 2 day with
    | some year, some month, some day =>
      1 ≤ month && month ≤ 12 && 1 ≤ day && day ≤ daysOfMonth year month
    | _, _, _ => false
  | _ => false

/-- Whether the text is a number of two digits up to `last`. -/
def isUpTo (last : Nat) (s : List Char) : Bool :=
  match fixedNumber? 2 s with
  | some n => n ≤ last
  | none => false

/-- Whether the text is a time of day; the seconds may be missing. -/
def isTime (s : List Char) : Bool :=
  match split (· == ':') s with
  | [hour, minute] => isUpTo 23 hour && isUpTo 59 minute
  | [hour, minute, second] =>
    isUpTo 23 hour && isUpTo 59 minute &&
      match split (· == '.') second with
      | [whole] => isUpTo 60 whole
      | [whole, fraction] => isUpTo 60 whole && !fraction.isEmpty && fraction.all Char.isDigit
      | _ => false
  | _ => false

/-- Whether the text is an offset from universal time without its sign. -/
def isOffset (s : List Char) : Bool :=
  match split (· == ':') s with
  | [hour, minute] => isUpTo 23 hour && isUpTo 59 minute
  | _ => false

/-- Whether the text is a time of day, perhaps with an offset. -/
def isZonedTime (s : List Char) : Bool :=
  let time := s.takeWhile fun c => c.isDigit || c == ':' || c == '.'
  isTime time &&
    match s.drop time.length with
    | [] => true
    | ['Z'] | ['z'] => true
    | '+' :: offset => isOffset offset
    | '-' :: offset => isOffset offset
    | _ => false

/-- Whether the text is a date, a time, or a date and a time. -/
def isMoment (s : List Char) : Bool :=
  isDate s || isTime s ||
    (isDate (s.take 10) &&
      match s.drop 10 with
      | c :: time => (c == 'T' || c == 't' || c == ' ') && isZonedTime time
      | [] => false)

/-! ## Words -/

/-- The value of a word. -/
def word? (s : List Char) : Option Item :=
  if s = ['t', 'r', 'u', 'e'] then some (.boolean true)
  else if s = ['f', 'a', 'l', 's', 'e'] then some (.boolean false)
  else if isMoment s then some .moment
  else
    match integer? s with
    | some value => some (.integer value)
    | none => float? s

end WebComponents.Toml
