import TypedQuery.Decimal.Arithmetic

/-!
# Decimal powers

A power with a whole exponent is a product, rounded factor by factor. Any other
power goes through the logarithm and the exponential, both as series whose terms
are rounded one by one.
-/

namespace TypedQuery.Decimal

/-- Euler's number. -/
def euler : Decimal :=
  ⟨false, 27182818284590452353602874714, 28, by decide, by decide⟩

/-- The inverse of Euler's number. -/
def eulerInverse : Decimal :=
  ⟨false, 3678794411714423215955237702, 28, by decide, by decide⟩

/-- Multiplies a product by a factor a number of times. A product that the factor
leaves as it is needs no further steps. -/
def mulRepeated? (product factor : Decimal) : Nat → Option Decimal
  | 0 => some product
  | times + 1 =>
    match product.mul? factor with
    | some next => if next = product then some product else mulRepeated? next factor times
    | none => none

/-- A power with a natural exponent: as many squares as half the exponent, and the
base once more if the exponent is odd. -/
def powNat? (base : Decimal) (exponent : Nat) : Option Decimal :=
  if exponent = 0 then some one
  else if base.isZero then some zero
  else if base.compare one = .eq then some one
  else if exponent = 1 then some base
  else do
    let square ← base.mul? base
    let product ← mulRepeated? one square (exponent / 2)
    if exponent % 2 = 1 then base.mul? product else pure product

/-- Multiplies by a factor while a condition holds, counting the steps. -/
def scaleWhile (fuel : Nat) (holds : Decimal → Bool) (factor x : Decimal) (count : Nat) :
    Option (Decimal × Nat) :=
  match fuel with
  | 0 => some (x, count)
  | fuel + 1 =>
    if holds x then
      match x.mul? factor with
      | some next => scaleWhile fuel holds factor next (count + 1)
      | none => none
    else some (x, count)

/-- Sums the series of the logarithm of `1 + x` with the opposite sign, until a
term changes nothing or a hundred terms are summed. -/
def logSeries (fuel : Nat) (x power sum : Decimal) (index : Nat) : Option Decimal :=
  match fuel with
  | 0 => some sum
  | fuel + 1 => do
    let power ← power.mul? x.neg
    let divisor ← ofInt? (index + 1)
    let term ← power.div? divisor
    let next ← sum.add? term
    if next.compare sum = .eq then pure next
    else logSeries fuel x power next (index + 1)

/-- The natural logarithm of a positive decimal. The number is first brought
between the inverse of Euler's number and 1. -/
def ln? (x : Decimal) : Option Decimal :=
  if x.negative || x.isZero then none
  else if x.compare one = .eq then some zero
  else do
    let (x, down) ← scaleWhile 100 (fun y => y.compare one != .lt) eulerInverse x 0
    let (x, up) ← scaleWhile 100 (fun y => y.compare eulerInverse != .gt) euler x 0
    let count ← ofInt? (Int.ofNat down - Int.ofNat up)
    let x ← x.sub? one
    if x.isZero then pure count
    else do
      let sum ← logSeries 100 x one zero 0
      count.sub? sum

/-- Sums the series of the exponential until a term changes nothing. -/
def expSeries (fuel : Nat) (x term sum : Decimal) (index : Nat) : Option Decimal :=
  match fuel with
  | 0 => some sum
  | fuel + 1 => do
    let product ← term.mul? x
    let divisor ← ofInt? index
    let term ← product.div? divisor
    let next ← sum.add? term
    if next.compare sum = .eq then pure next
    else expSeries fuel x term next (index + 1)

/-- The exponential of a decimal that is not negative. -/
def expPositive? (x : Decimal) : Option Decimal :=
  if x.isZero then some one
  else do
    let sum ← x.add? one
    expSeries 1000 x x sum 2

/-- The exponential of a decimal. -/
def exp? (x : Decimal) : Option Decimal :=
  if x.negative then do
    let inverse ← expPositive? x.abs
    one.div? inverse
  else expPositive? x

/-- A power of a decimal. The power of a negative base with a fractional exponent
is the power of its absolute value with the opposite sign. -/
def pow? (base exponent : Decimal) : Option Decimal :=
  if exponent.isZero then some one
  else if base.isZero then some zero
  else if base.compare one = .eq then some one
  else if exponent.compare one = .eq then some base
  else
    let exponent := exponent.normalize
    if exponent.scale = 0 then
      if exponent.mantissa < powerOfTwo 32 then
        if exponent.negative then do
          let power ← powNat? base exponent.mantissa
          one.div? power
        else powNat? base exponent.mantissa
      else none
    else do
      let log ← base.abs.ln?
      let product ← exponent.mul? log
      let power ← exp? product
      pure { power with negative := base.negative }

end TypedQuery.Decimal
