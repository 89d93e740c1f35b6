import TypedQuery.Binary.Basic
import TypedQuery.Decimal.Basic

/-!
# Floats and decimals

The two conversions between floats and decimals. A float becomes a decimal of
about sixteen digits without trailing zeros; a decimal becomes a float through
its integral part and its fraction.
-/

namespace TypedQuery

namespace Binary

/-- Takes powers of two out of a mantissa that is to be divided by `2 ^ steps`:
halves it while it is even, else multiplies it by five if there is room. -/
def divideByTwos : (steps : Nat) → (mantissa : Nat) → (exponent : Int) → Nat × Int
  | 0, mantissa, exponent => (mantissa, exponent)
  | steps + 1, mantissa, exponent =>
    if mantissa % 2 = 0 then divideByTwos steps (mantissa / 2) (exponent + 1)
    else if mantissa * 5 < powerOfTwo 96 then divideByTwos steps (mantissa * 5) exponent
    else divideByTwos steps (mantissa / 2) (exponent + 1)

/-- Puts powers of two into a mantissa: doubles it if there is room, else divides
it by five. -/
def multiplyByTwos : (steps : Nat) → (mantissa : Nat) → (exponent : Int) → Nat × Int
  | 0, mantissa, exponent => (mantissa, exponent)
  | steps + 1, mantissa, exponent =>
    if mantissa < powerOfTwo 95 then multiplyByTwos steps (mantissa * 2) (exponent - 1)
    else multiplyByTwos steps (mantissa / 5) exponent

/-- Drops the last digit, a half rounding upwards. -/
def dropDigit (mantissa : Nat) : Nat :=
  mantissa / 10 + if 5 ≤ mantissa % 10 then 1 else 0

/-- Drops digits until the scale is at most 28. A number without a digit left is
zero at scale 0. -/
def dropToScale : (excess : Nat) → (mantissa : Nat) → Option Nat
  | 0, mantissa => some mantissa
  | excess + 1, mantissa =>
    if mantissa / 10 = 0 then none else dropToScale excess (dropDigit mantissa)

/-- Drops digits after the point until the mantissa has the precision of a float. -/
def dropToPrecision : (scale : Nat) → (mantissa : Nat) → Nat × Nat
  | 0, mantissa => (mantissa, 0)
  | scale + 1, mantissa =>
    if powerOfTwo 53 ≤ mantissa then dropToPrecision scale (dropDigit mantissa)
    else (mantissa, scale + 1)

/-- The decimal of a finite float. Floats beyond the largest decimal have none. -/
def toDecimal? (b : Binary) : Option Decimal :=
  if b.significand = 0 then Decimal.ofParts? b.negative 0 0
  else
    let (mantissa, exponent) :=
      if b.exponent < 0 then divideByTwos b.exponent.natAbs b.significand b.exponent
      else multiplyByTwos b.exponent.natAbs b.significand b.exponent
    if 0 < exponent then Decimal.ofParts? b.negative (mantissa * powerOfTen exponent.toNat) 0
    else
      match dropToScale (exponent.natAbs - 28) mantissa with
      | none => Decimal.ofParts? b.negative 0 0
      | some mantissa =>
        let (mantissa, scale) := dropToPrecision (min exponent.natAbs 28) mantissa
        let (mantissa, scale) := Decimal.strip mantissa scale
        Decimal.ofParts? b.negative mantissa scale

/-- A power of ten by repeated squaring in floats. -/
def tenPower (fuel : Nat) (factor : Float) (result : Float) (exponent : Nat) : Float :=
  match fuel with
  | 0 => result
  | fuel + 1 =>
    let result := if exponent % 2 = 1 then result * factor else result
    if exponent / 2 = 0 then result
    else tenPower fuel (factor * factor) result (exponent / 2)

end Binary

namespace Decimal

/-- The decimal of a float; a NaN, the infinities and too large floats have none. -/
def ofFloat? (x : Float) : Option Decimal :=
  (Binary.ofFloat? x).bind Binary.toDecimal?

/-- A decimal as a float: the integral part plus the fraction, rounded to the
decimal's scale. -/
def toFloat (d : Decimal) : Float :=
  if d.scale = 0 then Binary.ofInt d.signed
  else
    let unit := powerOfTen d.scale
    let whole := Binary.nearest false (d.mantissa / unit) 1
    let fraction := Binary.nearest false (d.mantissa % unit) 1 / Binary.nearest false unit 1
    let result :=
      if fraction == 0.0 then whole
      else
        let power := Binary.tenPower 64 10.0 1.0 d.scale
        ((whole + fraction) * power).round / power
    if d.negative then -result else result

end Decimal

end TypedQuery
