import TypedQuery.Binary.Basic

/-!
# Shortest digits

The fewest decimal digits that read back as a given float, and of those the
nearest to it. A float stands for all reals that round to it; grids of decimal
numbers are tried from the coarsest to the finest until one of the two
neighbours of the float on the grid lies in that interval.
-/

namespace TypedQuery.Binary

/-- A natural number of digits times a power of ten. -/
structure Digits where
  digits : Nat
  exponent : Int
deriving DecidableEq

/-- The reals that round to a float, as numerators over one denominator: the float
itself and the two ends, which belong to the interval if the significand is even. -/
structure Interval where
  value : Nat
  low : Nat
  high : Nat
  denominator : Nat
  closed : Bool

/-- The interval of reals that round to a positive float. Below a power of two the
floats are twice as dense. -/
def interval (b : Binary) : Interval :=
  let edge := b.significand = powerOfTwo 52 ∧ -1074 < b.exponent
  let power : Int := b.exponent - 2
  let up := powerOfTwo power.toNat
  { value := 4 * b.significand * up
    low := (4 * b.significand - if edge then 1 else 2) * up
    high := (4 * b.significand + 2) * up
    denominator := powerOfTwo (-power).toNat
    closed := b.significand % 2 = 0 }

/-- The candidate `digits * 10 ^ exponent` as a quotient. -/
def Digits.quotient (d : Digits) : Nat × Nat :=
  (d.digits * powerOfTen d.exponent.toNat, powerOfTen (-d.exponent).toNat)

/-- The candidate reads back as the float. -/
def Interval.admits (i : Interval) (d : Digits) : Bool :=
  let (numerator, denominator) := d.quotient
  let point := numerator * i.denominator
  let low := i.low * denominator
  let high := i.high * denominator
  if i.closed then low ≤ point && point ≤ high else low < point && point < high

/-- The neighbour of the float on the grid of a power of ten that lies in the
interval, the nearer one if both do. -/
def Interval.onGrid? (i : Interval) (exponent : Int) : Option Digits :=
  let up := powerOfTen exponent.toNat * i.denominator
  let value := i.value * powerOfTen (-exponent).toNat
  let below : Digits := ⟨value / up, exponent⟩
  let above : Digits := ⟨value / up + 1, exponent⟩
  match i.admits below && 0 < below.digits, i.admits above with
  | true, true => some (if 2 * (value % up) ≤ up then below else above)
  | true, false => some below
  | false, true => some above
  | false, false => none

/-- The exponent of the first digit of a positive quotient. -/
def leadingExponent (numerator denominator : Nat) : Int :=
  if denominator ≤ numerator then
    ((Nat.toDigits 10 (numerator / denominator)).length : Int) - 1
  else
    let length := (Nat.toDigits 10 (denominator / numerator)).length
    if denominator ≤ numerator * powerOfTen (length - 1) then 1 - (length : Int)
    else -(length : Int)

/-- The fewest digits that read back as a positive float. Seventeen are always
enough. -/
def shortest (b : Binary) : Digits :=
  let i := b.interval
  let lead := leadingExponent i.value i.denominator
  ((List.range 18).findSome? fun (count : Nat) => i.onGrid? (lead - (count : Int))).getD
    ⟨i.value, 0⟩

end TypedQuery.Binary
