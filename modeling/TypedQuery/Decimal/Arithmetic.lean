import TypedQuery.Decimal.Basic

/-!
# Decimal arithmetic

Each operation computes the exact result and then rounds it to the largest scale
at which it fits, a half going to the even neighbour. A result whose integral
part does not fit has no decimal.
-/

namespace TypedQuery

/-- A quotient of naturals rounded to the nearest integer, a half to the even one. -/
def roundHalfEven (numerator denominator : Nat) : Nat :=
  let quotient := numerator / denominator
  let twice := 2 * (numerator % denominator)
  if twice < denominator then quotient
  else if denominator < twice then quotient + 1
  else quotient + quotient % 2

namespace Decimal

/-- The decimal nearest to `mantissa / 10 ^ scale` at the largest scale at which
it fits. -/
def fit? (negative : Bool) (mantissa scale : Nat) : Option Decimal :=
  (List.range (scale + 1)).findSome? fun dropped =>
    ofParts? negative (roundHalfEven mantissa (powerOfTen dropped)) (scale - dropped)

/-- The sum of two decimals. -/
def add? (a b : Decimal) : Option Decimal :=
  let scale := max a.scale b.scale
  let sum := a.signed * powerOfTen (scale - a.scale) + b.signed * powerOfTen (scale - b.scale)
  fit? (sum < 0) sum.natAbs scale

/-- The difference of two decimals. -/
def sub? (a b : Decimal) : Option Decimal :=
  add? a b.neg

/-- The product of two decimals. -/
def mul? (a b : Decimal) : Option Decimal :=
  fit? (a.negative != b.negative) (a.mantissa * b.mantissa) (a.scale + b.scale)

/-- The quotient of two decimals, at the largest scale at which it fits. Division
by zero has no result. -/
def div? (a b : Decimal) : Option Decimal :=
  if b.isZero then none
  else
    (List.range (maxScale + 1)).reverse.findSome? fun scale =>
      ofParts? (a.negative != b.negative)
        (roundHalfEven (a.mantissa * powerOfTen (b.scale + scale))
          (b.mantissa * powerOfTen a.scale))
        scale

/-- The remainder of the division that rounds toward zero. It has the sign of the
dividend. -/
def rem? (a b : Decimal) : Option Decimal :=
  if b.isZero then none
  else
    let scale := max a.scale b.scale
    ofParts? a.negative
      (a.mantissa * powerOfTen (scale - a.scale) % (b.mantissa * powerOfTen (scale - b.scale)))
      scale

end Decimal

end TypedQuery
