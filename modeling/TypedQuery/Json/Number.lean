import TypedQuery.Binary.Text

/-!
# Numbers in JSON

Integers of 64 bits are kept exactly, all other numbers as floats. A number is read
digit by digit: the digits that fit 64 bits make a significand, the others count for
the exponent only, and the significand is then scaled by a power of ten in floats.
-/

namespace TypedQuery.Json

/-- A number: a natural one, a negative integer or a finite float. -/
inductive Number
  | natural (n : UInt64)
  | negative (n : Int64)
  | float (x : Float)

namespace Number

/-- An integer of 64 bits. -/
def ofInt64 (n : Int64) : Number :=
  if n.toInt < 0 then negative n else natural (UInt64.ofNat n.toInt.toNat)

/-- A finite float. -/
def ofFloat? (x : Float) : Option Number :=
  if x.isFinite then some (float x) else none

/-- The text of a number. -/
def text : Number → String
  | natural n => toString n.toNat
  | negative n => toString n.toInt
  | float x => Binary.text Binary.jsonLayout x

/-- The significand that digits make with an older one, as far as it fits 64 bits,
and the number of digits that were taken. -/
def gather (significand : Nat) (taken : Nat) : List Char → Nat × Nat
  | [] => (significand, taken)
  | c :: rest =>
    let next := significand * 10 + digitValue c
    if next < powerOfTwo 64 then gather next (taken + 1) rest else (significand, taken)

/-- Scales a float by a power of ten. Numbers beyond the largest float have no
result. -/
def scale? : Nat → Float → Int → Option Float
  | 0, _, _ => none
  | fuel + 1, x, exponent =>
    if exponent.natAbs ≤ 308 then
      let power := Binary.nearest false (powerOfTen exponent.natAbs) 1
      if 0 ≤ exponent then
        let result := x * power
        if result.isFinite then some result else none
      else some (x / power)
    else if x == 0.0 then some x
    else if 0 ≤ exponent then none
    else scale? fuel (x / Binary.nearest false (powerOfTen 308) 1) (exponent + 308)

/-- The float of a significand and an exponent. -/
def ofParts? (isNegative : Bool) (significand : Nat) (exponent : Int) : Option Number :=
  (scale? 32 (Binary.nearest false significand 1) (max (-4000) exponent)).map fun x =>
    float (if isNegative then -x else x)

/-- The text of a number cut into its parts: the digits before the point, those after
it, and the exponent. -/
structure Parts where
  whole : List Char
  fraction? : Option (List Char)
  exponent? : Option Int

/-- The largest absolute value of an exponent that is told from an endless one. -/
def exponentLimit : Nat := powerOfTwo 31 - 1

/-- Cuts an exponent off a text. Nothing if its mark is not followed by digits. -/
def exponent? (text : List Char) : Option (Option Int × List Char) :=
  match text with
  | [] => some (none, [])
  | mark :: rest =>
    if mark = 'e' || mark = 'E' then
      let (isNegative, digits) := match rest with
        | '-' :: more => (true, more)
        | '+' :: more => (false, more)
        | more => (false, more)
      let taken := digits.takeWhile Char.isDigit
      if taken.isEmpty then none
      else
        let n : Int := digitsValue taken
        some (some (if isNegative then -n else n), digits.dropWhile Char.isDigit)
    else some (none, mark :: rest)

/-- Cuts a fraction off a text. Nothing if its point is not followed by digits. -/
def fraction? (text : List Char) : Option (Option (List Char) × List Char) :=
  match text with
  | '.' :: rest =>
    let taken := rest.takeWhile Char.isDigit
    if taken.isEmpty then none else some (some taken, rest.dropWhile Char.isDigit)
  | rest => some (none, rest)

/-- Cuts an unsigned number off a text. A zero stands alone before the point. -/
def parts? (text : List Char) : Option (Parts × List Char) := do
  let whole := text.takeWhile Char.isDigit
  if whole.isEmpty || (whole.head? = some '0' && 1 < whole.length) then none
  else
    let (fraction?, rest) ← fraction? (text.dropWhile Char.isDigit)
    let (exponent?, rest) ← exponent? rest
    return (⟨whole, fraction?, exponent?⟩, rest)

/-- The number of its parts. An integer that does not fit, and the negative zero,
become floats. -/
def ofNumberParts? (isNegative : Bool) (parts : Parts) : Option Number :=
  let (significand, taken) := gather 0 0 parts.whole
  let dropped := parts.whole.length - taken
  match parts.fraction?, parts.exponent? with
  | none, none =>
    if 0 < dropped then ofParts? isNegative significand dropped
    else if !isNegative then some (natural (UInt64.ofNat significand))
    else if 0 < significand ∧ significand ≤ powerOfTwo 63 then
      some (negative (Int64.ofInt (-(significand : Int))))
    else ofParts? isNegative significand 0
  | fraction?, exponent? =>
    let (significand, taken) := gather significand 0 (fraction?.getD [])
    let exponent := exponent?.getD 0
    if exponentLimit < exponent.natAbs then
      if significand ≠ 0 ∧ 0 < exponent then none
      else some (float (if isNegative then -0.0 else 0.0))
    else ofParts? isNegative significand ((dropped : Int) - taken + exponent)

/-- Cuts a number off a text. -/
def scan? (text : List Char) : Option (Number × List Char) :=
  let (isNegative, rest) := match text with
    | '-' :: rest => (true, rest)
    | rest => (false, rest)
  (parts? rest).bind fun (parts, rest) =>
    (ofNumberParts? isNegative parts).map fun number => (number, rest)

/-- Reads a number. -/
def read? (text : String) : Option Number :=
  match scan? text.toList with
  | some (number, []) => some number
  | _ => none

end Number

end TypedQuery.Json
