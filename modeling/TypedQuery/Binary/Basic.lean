import TypedQuery.Decimal.Arithmetic

/-!
# Binary floating-point numbers

A finite float is a natural number times a power of two. Conversions go through
this form in exact arithmetic, and the way back rounds to the nearest float, a
half to the even one.
-/

namespace TypedQuery

/-- A finite float: `significand * 2 ^ exponent` with a sign. -/
structure Binary where
  negative : Bool
  significand : Nat
  exponent : Int
deriving DecidableEq

namespace Binary

/-- The parts of a float; a NaN and the infinities have none. -/
def ofFloat? (x : Float) : Option Binary :=
  let bits : Nat := x.toBits.toNat
  let negative := decide (powerOfTwo 63 ≤ bits)
  let field : Nat := bits / powerOfTwo 52 % powerOfTwo 11
  let fraction : Nat := bits % powerOfTwo 52
  if field = 2047 then none
  else if field = 0 then some ⟨negative, fraction, -1074⟩
  else some ⟨negative, powerOfTwo 52 + fraction, Int.ofNat field - 1075⟩

/-- A quotient divided by a power of two, as a quotient of naturals. -/
def overPower (numerator denominator : Nat) (exponent : Int) : Nat × Nat :=
  if 0 ≤ exponent then (numerator, denominator * powerOfTwo exponent.toNat)
  else (numerator * powerOfTwo (-exponent).toNat, denominator)

/-- The exponent at which the quotient has a significand of 53 bits, or the
smallest exponent if that is larger. -/
def exponentFor (numerator denominator : Nat) : Int :=
  let guess : Int := (numerator.log2 : Int) - denominator.log2 - 53
  let scaled := overPower numerator denominator guess
  let exact := if scaled.1 < scaled.2 * powerOfTwo 53 then guess else guess + 1
  max exact (-1074)

/-- The bits of the float nearest to a quotient, without a sign. Quotients beyond
the largest float give infinity. -/
def nearestBits (numerator denominator : Nat) : Nat :=
  if numerator = 0 then 0
  else
    let exponent := exponentFor numerator denominator
    let scaled := overPower numerator denominator exponent
    let bits := (exponent + 1074).toNat * powerOfTwo 52 + roundHalfEven scaled.1 scaled.2
    min bits (2047 * powerOfTwo 52)

/-- The float nearest to a quotient of naturals, with a sign. -/
def nearest (negative : Bool) (numerator denominator : Nat) : Float :=
  let bits := nearestBits numerator denominator
  Float.ofBits (UInt64.ofNat (if negative then bits + powerOfTwo 63 else bits))

/-- The float nearest to an integer. -/
def ofInt (n : Int) : Float :=
  nearest (n < 0) n.natAbs 1

/-- The absolute value as a quotient of naturals. -/
def quotient (b : Binary) : Nat × Nat :=
  if 0 ≤ b.exponent then (b.significand * powerOfTwo b.exponent.toNat, 1)
  else (b.significand, powerOfTwo (-b.exponent).toNat)

/-- The value when it is an integer. -/
def toInt? (b : Binary) : Option Int :=
  let (numerator, denominator) := b.quotient
  if numerator % denominator = 0 then
    let whole : Int := (numerator / denominator : Nat)
    some (if b.negative then -whole else whole)
  else none

/-- The remainder of the float division that rounds toward zero. It has the sign
of the dividend. -/
def remainder (x y : Float) : Float :=
  match ofFloat? x, ofFloat? y with
  | some a, some b =>
    if b.significand = 0 then 0.0 / 0.0
    else
      let low := min a.exponent b.exponent
      let left := a.significand * powerOfTwo (a.exponent - low).toNat
      let right := b.significand * powerOfTwo (b.exponent - low).toNat
      let rest : Binary := ⟨a.negative, left % right, low⟩
      nearest a.negative rest.quotient.1 rest.quotient.2
  | some _, none => if y.isNaN then y else x
  | none, _ => 0.0 / 0.0

end Binary

end TypedQuery
