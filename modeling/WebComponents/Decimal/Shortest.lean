/-!
# The shortest decimal of a binary fraction

A floating-point number `m · 2^q` stands for every real number that rounds to it: an interval that
reaches halfway to its neighbours, ends included when `m` is even.  Among the decimals in that
interval with the fewest digits, `shortest` takes the one nearest to the number.

The interval is kept in quarters of the last place, so that its ends are integers: below a power of
two the neighbour is only half as far away as above it.
-/

namespace WebComponents.Decimal

/-- The reals that round to `units · 2^exponent`. -/
structure Interval where
  units : Nat
  below : Nat
  above : Nat
  exponent : Int
  closed : Bool

/-- The numerator and denominator of `n · 10^p / 2^q`. -/
def gridRatio (n : Nat) (p q : Int) : Nat × Nat :=
  (n * Nat.pow 10 p.toNat * Nat.pow 2 (-q).toNat, Nat.pow 10 (-p).toNat * Nat.pow 2 q.toNat)

/-- Whether the decimal `n · 10^p` lies in the interval. -/
def Interval.holds (interval : Interval) (n : Nat) (p : Int) : Bool :=
  let (num, den) := gridRatio n p interval.exponent
  let low := interval.units - interval.below
  let high := interval.units + interval.above
  if interval.closed then low * den ≤ num && num ≤ high * den
  else low * den < num && num < high * den

/-- How far the decimal `n · 10^p` is from the middle of the interval, in a unit that depends on `p`
alone. -/
def Interval.distance (interval : Interval) (n : Nat) (p : Int) : Nat :=
  let (num, den) := gridRatio n p interval.exponent
  (num - interval.units * den) + (interval.units * den - num)

/-- The largest multiple of `10^p` that is not above the middle. -/
def Interval.gridFloor (interval : Interval) (p : Int) : Nat :=
  let (num, den) := gridRatio 1 p interval.exponent
  interval.units * den / num

/-- The decimal of the interval on the grid of `10^p` that is nearest to its middle. -/
def Interval.onGrid? (interval : Interval) (p : Int) : Option Nat :=
  let floor := interval.gridFloor p
  match interval.holds floor p, interval.holds (floor + 1) p with
  | true, true =>
    if interval.distance (floor + 1) p < interval.distance floor p then some (floor + 1)
    else some floor
  | true, false => some floor
  | false, true => some (floor + 1)
  | false, false => none

/-- The digits of the shortest decimal and its power of ten: the first grid, from coarse to fine,
that has a point in the interval. -/
def Interval.shortest (interval : Interval) : Nat × Int :=
  -- no double reaches 10^309, and each has a decimal with a last place of 10^-340 or above
  let grids := (List.range 650).map fun i : Nat => (309 : Int) - i
  (grids.findSome? fun p =>
    match interval.onGrid? p with
    | some n => if n = 0 then none else some (n, p)
    | none => none).getD (0, 0)

/-- The interval of a positive double-precision number with the given bits. -/
def Interval.ofBits (bits : UInt64) : Interval :=
  let fraction := (bits &&& 0xFFFFFFFFFFFFF).toNat
  let power := ((bits >>> 52) &&& 0x7FF).toNat
  let m := if power = 0 then fraction else fraction + 0x10000000000000
  let q : Int := (if power = 0 then 1 else power : Nat) - 1075
  { units := 4 * m
    below := if fraction = 0 ∧ 1 < power then 1 else 2
    above := 2
    exponent := q - 2
    closed := m % 2 = 0 }

/-- A power of ten as it is written, with its sign. -/
def powerChars (power : Int) : List Char :=
  (if power < 0 then '-' else '+') :: (toString power.natAbs).toList

/-- The number in decimal, as short as it can be told apart from its neighbours: positional between
`10^-5` and `10^16`, else with a power of ten. -/
def shortestText (value : Float) : String :=
  let sign := if value.toBits >>> 63 = 1 then "-" else ""
  let bits := value.toBits &&& 0x7FFFFFFFFFFFFFFF
  if bits = 0 then
    sign ++ "0.0"
  else
    let (n, p) := (Interval.ofBits bits).shortest
    let digits := (toString n).toList
    let point := digits.length + p
    let text :=
      if 0 < point ∧ point ≤ 16 then
        if 0 ≤ p then digits ++ List.replicate p.toNat '0' ++ ['.', '0']
        else digits.take point.toNat ++ '.' :: digits.drop point.toNat
      else if -5 < point ∧ point ≤ 0 then
        '0' :: '.' :: List.replicate (-point).toNat '0' ++ digits
      else
        match digits with
        | [digit] => digit :: 'e' :: powerChars (point - 1)
        | digit :: more => digit :: '.' :: more ++ 'e' :: powerChars (point - 1)
        | [] => []
    sign ++ String.ofList text

end WebComponents.Decimal
