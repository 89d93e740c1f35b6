import TypedQuery.Binary.Basic

/-!
# Reading floats

Float text is an optional sign and either digits with an optional point and an
optional exponent, or one of the words for infinity and NaN. The result is the
nearest float.
-/

namespace TypedQuery.Binary

/-- The float nearest to `digits * 10 ^ exponent`. Exponents far beyond the range
of floats give zero or infinity at once. -/
def ofScientific (negative : Bool) (digits : Nat) (exponent : Int) : Float :=
  let lead := exponent + (Nat.toDigits 10 digits).length
  if digits = 0 || lead < -400 then nearest negative 0 1
  else if 400 < lead then nearest negative (powerOfTwo 1024) 1
  else nearest negative (digits * powerOfTen exponent.toNat) (powerOfTen (-exponent).toNat)

/-- An exponent after its mark: an optional sign and at least one digit. -/
def readExponent? (text : List Char) : Option Int :=
  let (negative, digits) := match text with
    | '-' :: rest => (true, rest)
    | '+' :: rest => (false, rest)
    | digits => (false, digits)
  if digits.isEmpty || !digits.all Char.isDigit then none
  else some (if negative then -(digitsValue digits : Int) else digitsValue digits)

/-- A float without its sign. -/
def readUnsigned? (negative : Bool) (text : List Char) : Option Float :=
  let word := text.map Char.toLower
  if word = "inf".toList || word = "infinity".toList then
    some (nearest negative (powerOfTwo 1024) 1)
  else if word = "nan".toList then some (0.0 / 0.0)
  else
    let whole := text.takeWhile Char.isDigit
    let afterWhole := text.drop whole.length
    let (fraction, rest) := match afterWhole with
      | '.' :: more => (more.takeWhile Char.isDigit, more.dropWhile Char.isDigit)
      | more => ([], more)
    if whole.isEmpty && fraction.isEmpty then none
    else
      let digits := digitsValue (whole ++ fraction)
      match rest with
      | [] => some (ofScientific negative digits (-(fraction.length : Int)))
      | mark :: exponent =>
        if mark = 'e' || mark = 'E' then
          (readExponent? exponent).map fun e =>
            ofScientific negative digits (e - fraction.length)
        else none

/-- Reads a float. -/
def read? (text : List Char) : Option Float :=
  match text with
  | '-' :: rest => readUnsigned? true rest
  | '+' :: rest => readUnsigned? false rest
  | rest => readUnsigned? false rest

end TypedQuery.Binary
