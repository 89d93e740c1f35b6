/-!
# Numerals

The powers of two that bound integers of a fixed width, the powers of ten that shift
numbers by digits, and the numbers that decimal digits write.
-/

namespace TypedQuery

/-- The power of two that shifts a number by bits: the first number that does not fit
in that many bits. -/
def powerOfTwo (bits : Nat) : Nat :=
  Nat.pow 2 bits

/-- The power of ten that shifts a number by digits. -/
def powerOfTen (digits : Nat) : Nat :=
  Nat.pow 10 digits

/-- The value of a decimal digit. -/
def digitValue (c : Char) : Nat :=
  c.toNat - '0'.toNat

/-- The number written by decimal digits. -/
def digitsValue (digits : List Char) : Nat :=
  digits.foldl (fun n c => n * 10 + digitValue c) 0

end TypedQuery
