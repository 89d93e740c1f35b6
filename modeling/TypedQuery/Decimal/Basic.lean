import TypedQuery.Numeral

/-!
# Decimal numbers

A decimal is a signed integer of at most 96 bits divided by a power of ten of at
most 28. The same number may be held at several scales, and the scale shows when
the number is written: `1.50` and `1.5` are equal but not the same decimal.
-/

namespace TypedQuery

/-- A signed mantissa of 96 bits over a power of ten. -/
structure Decimal where
  negative : Bool
  mantissa : Nat
  scale : Nat
  mantissa_lt : mantissa < powerOfTwo 96 := by decide
  scale_le : scale ≤ 28 := by decide
deriving DecidableEq

namespace Decimal

/-- The limit of mantissas in digits. -/
theorem mantissa_limit_eq : powerOfTwo 96 = 79228162514264337593543950336 :=
  rfl

/-- The largest scale. -/
def maxScale : Nat := 28

/-- A decimal from its parts, when they are in range. -/
def ofParts? (negative : Bool) (mantissa scale : Nat) : Option Decimal :=
  if bounds : mantissa < powerOfTwo 96 ∧ scale ≤ 28 then
    some ⟨negative, mantissa, scale, bounds.1, bounds.2⟩
  else none

/-- The decimal 0. -/
def zero : Decimal := ⟨false, 0, 0, by decide, by decide⟩

/-- The decimal 1. -/
def one : Decimal := ⟨false, 1, 0, by decide, by decide⟩

instance : Inhabited Decimal := ⟨zero⟩

/-- An integer as a decimal of scale 0. -/
def ofInt? (n : Int) : Option Decimal :=
  ofParts? (n < 0) n.natAbs 0

/-- A signed 64-bit integer as a decimal. -/
def ofInt64 (n : Int64) : Decimal :=
  ⟨n.toInt < 0, n.toInt.natAbs, 0, by
    have low := n.le_toInt
    have high := n.toInt_lt
    have limit := mantissa_limit_eq
    omega, by decide⟩

/-- An unsigned 64-bit integer as a decimal. -/
def ofUInt64 (n : UInt64) : Decimal :=
  ⟨false, n.toNat, 0, by
    have high := n.toNat_lt
    have limit := mantissa_limit_eq
    omega, by decide⟩

/-- The mantissa with its sign. -/
def signed (d : Decimal) : Int :=
  if d.negative then -d.mantissa else d.mantissa

/-- Equal to zero, whatever the scale and the sign. -/
def isZero (d : Decimal) : Bool :=
  d.mantissa = 0

/-- The same digits with the opposite sign. Zero changes its sign too. -/
def neg (d : Decimal) : Decimal :=
  { d with negative := !d.negative }

/-- The same digits without a sign. -/
def abs (d : Decimal) : Decimal :=
  { d with negative := false }

/-- The order of the numbers, whatever their scales. -/
def compare (a b : Decimal) : Ordering :=
  Ord.compare (a.signed * powerOfTen b.scale) (b.signed * powerOfTen a.scale)

/-- Divides the mantissa by ten as long as it is a multiple of ten and the scale
allows. -/
def strip (mantissa : Nat) : (scale : Nat) → Nat × Nat
  | 0 => (mantissa, 0)
  | scale + 1 => if mantissa % 10 = 0 then strip (mantissa / 10) scale else (mantissa, scale + 1)

/-- Taking zeros off the end makes neither part larger. -/
theorem strip_le (mantissa scale : Nat) :
    (strip mantissa scale).1 ≤ mantissa ∧ (strip mantissa scale).2 ≤ scale := by
  induction scale generalizing mantissa with
  | zero => simp [strip]
  | succ scale ih =>
    unfold strip
    split
    · have step := ih (mantissa / 10)
      have smaller : mantissa / 10 ≤ mantissa := Nat.div_le_self _ _
      omega
    · simp

/-- The same number at the smallest scale; zero becomes the positive zero of scale 0. -/
def normalize (d : Decimal) : Decimal :=
  if d.mantissa = 0 then zero
  else
    ⟨d.negative, (strip d.mantissa d.scale).1, (strip d.mantissa d.scale).2,
      Nat.lt_of_le_of_lt (strip_le _ _).1 d.mantissa_lt,
      Nat.le_trans (strip_le _ _).2 d.scale_le⟩

/-- The integral part of the absolute value. -/
def wholePart (d : Decimal) : Nat :=
  d.mantissa / powerOfTen d.scale

/-- The number has no fraction. -/
def isWhole (d : Decimal) : Bool :=
  d.mantissa % powerOfTen d.scale = 0

/-- The number rounded toward zero. -/
def truncate (d : Decimal) : Int :=
  if d.negative then -d.wholePart else d.wholePart

/-- The digits of the mantissa with the point before the last `scale` of them and
at least one digit before the point. -/
def digits (mantissa scale : Nat) : List Char :=
  let all := Nat.toDigits 10 mantissa
  let padded := List.replicate (scale + 1 - all.length) '0' ++ all
  if scale = 0 then padded
  else padded.take (padded.length - scale) ++ '.' :: padded.drop (padded.length - scale)

/-- A decimal with all digits of its scale. -/
def text (d : Decimal) : String :=
  String.ofList ((if d.negative then ['-'] else []) ++ digits d.mantissa d.scale)

end Decimal

end TypedQuery
