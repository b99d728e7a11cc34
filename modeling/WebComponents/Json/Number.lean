import WebComponents.Json.Scalar

/-!
# The value of a number

An integer that fits into 64 bits is kept exactly.  Any other number is a floating-point one: its
leading digits, as many as fit into 64 bits, times a power of ten.  The power is applied in one
multiplication or division, or in steps of `10^308` when it is smaller than that, and a number too
large for a floating-point one has no value.
-/

namespace WebComponents.Json

/-- The value of a number. -/
inductive Number where
  | natural (n : Nat)
  | negative (n : Nat)
  | real (value : Float)

/-- The largest number of 64 bits. -/
def maxUnsigned : Nat := 0xFFFFFFFFFFFFFFFF

/-- The largest magnitude of a negative number of 64 bits. -/
def maxNegative : Nat := 0x8000000000000000

/-- The largest magnitude of a power of ten that is told apart from larger ones. -/
def maxPower : Nat := 0x7FFFFFFF

/-- The value of a decimal digit. -/
def digitValue (c : Char) : Nat :=
  c.toNat - '0'.toNat

/-- Reads digits as long as the number fits into 64 bits; the digits that are left over come
back. -/
def takeDigits (n : Nat) : List Char → Nat × List Char
  | [] => (n, [])
  | c :: rest =>
    if n * 10 + digitValue c ≤ maxUnsigned then takeDigits (n * 10 + digitValue c) rest
    else (n, c :: rest)

/-- The number that digits spell. -/
def digitsNumber (digits : List Char) : Nat :=
  digits.foldl (fun n c => n * 10 + digitValue c) 0

/-- A power of ten as a floating-point number. -/
def powerOfTen (n : Nat) : Float :=
  Float.ofScientific 1 false n

/-- The quotient of `value` by `10^n`, with `steps` divisions by `10^308` at most. -/
def divideByPower (value : Float) (n : Nat) : Float :=
  if n ≤ 308 then value / powerOfTen n
  else if value == 0 then value
  else divideByPower (value / powerOfTen 308) (n - 308)
termination_by n

/-- The product of a significand and a power of ten; none if it is too large. -/
def scaled? (significand : Nat) (power : Int) : Option Float :=
  let value := significand.toUInt64.toFloat
  if power < 0 then
    some (divideByPower value power.natAbs)
  else if power.natAbs ≤ 308 then
    let product := value * powerOfTen power.natAbs
    if product.isInf then none else some product
  else if value == 0 then some value
  else none

/-- The integer as a number, if it has no fraction, no power and fits. -/
def Numeral.integer? (numeral : Numeral) : Option Number :=
  if numeral.fraction?.isSome ∨ numeral.exponent?.isSome then none
  else
    let n := digitsNumber numeral.whole
    if numeral.negative then
      if 0 < n ∧ n ≤ maxNegative then some (.negative n) else none
    else if n ≤ maxUnsigned then some (.natural n)
    else none

/-- The floating-point number without its sign. -/
def Numeral.magnitude? (numeral : Numeral) : Option Float :=
  let (whole, wholeRest) := takeDigits 0 numeral.whole
  let fraction := numeral.fraction?.getD []
  let (significand, fractionRest) := takeDigits whole fraction
  let shift : Int := wholeRest.length - (fraction.length - fractionRest.length : Nat)
  match numeral.exponent? with
  | none => scaled? significand shift
  | some (negative, digits) =>
    let power := digitsNumber digits
    if maxPower < power then
      if negative ∨ significand = 0 then some 0 else none
    else
      scaled? significand (if negative then shift - power else shift + power)

/-- The value of a number; none if it is too large. -/
def Numeral.value? (numeral : Numeral) : Option Number :=
  match numeral.integer? with
  | some number => some number
  | none => numeral.magnitude?.map fun value => .real (if numeral.negative then -value else value)

end WebComponents.Json
