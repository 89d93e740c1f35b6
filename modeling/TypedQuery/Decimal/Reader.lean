import TypedQuery.Decimal.Basic

/-!
# Reading decimals

Decimal text is an optional sign and digits with at most one point; underscores
may follow the first digit. Digits after the point that do not fit are rounded
away, a half upwards, and whatever follows the first of them is not looked at.
-/

namespace TypedQuery.Decimal

/-- Why a text is not a decimal. -/
inductive ReadFault
  | empty
  | noDigits
  | tooManyDigits
  | tooLargeWhenRounded
  | twoPoints
  | separatorFirst
  | unknownCharacter
deriving DecidableEq

/-- The wording of a fault. -/
def ReadFault.message : ReadFault → String
  | empty => "Invalid decimal: empty"
  | noDigits => "Invalid decimal: no digits found"
  | tooManyDigits => "Invalid decimal: overflow from too many digits"
  | tooLargeWhenRounded => "Invalid decimal: overflow from mantissa after rounding"
  | twoPoints => "Invalid decimal: two decimal points"
  | separatorFirst => "Invalid decimal: must start lead with a number"
  | unknownCharacter => "Invalid decimal: unknown character"

/-- The fault of a character that cannot stand at its place. -/
def ReadFault.ofCharacter (c : Char) : ReadFault :=
  if c = '.' then twoPoints else if c = '_' then separatorFirst else unknownCharacter

/-- Rounds by the first digit that does not fit. -/
def roundBy (mantissa scale : Nat) (next : Char) : Except ReadFault (Nat × Nat) :=
  if !next.isDigit && next ≠ '_' && next ≠ '.' then .error (.ofCharacter next)
  else if next.isDigit && 5 ≤ digitValue next then
    if mantissa + 1 < powerOfTwo 96 then .ok (mantissa + 1, scale)
    else if scale = 0 then .error .tooLargeWhenRounded
    else .ok ((mantissa + 5) / 10, scale - 1)
  else .ok (mantissa, scale)

/-- Reads the digits after the sign into a mantissa and a scale. `pointed` says
that the point has been passed, `digitSeen` that a digit has. -/
def readDigits (pointed digitSeen : Bool) (mantissa scale : Nat) :
    List Char → Except ReadFault (Nat × Nat)
  | [] => if digitSeen then .ok (mantissa, scale) else .error .noDigits
  | c :: rest =>
    if pointed && scale = 28 then roundBy mantissa scale c
    else if c.isDigit then
      let next := mantissa * 10 + digitValue c
      if next < powerOfTwo 96 then
        readDigits pointed true next (if pointed then scale + 1 else scale) rest
      else if pointed then roundBy mantissa scale c
      else .error .tooManyDigits
    else if c = '.' && !pointed then readDigits true digitSeen mantissa scale rest
    else if c = '_' && digitSeen then readDigits pointed digitSeen mantissa scale rest
    else .error (.ofCharacter c)

/-- Reads a decimal. Zero has no sign. -/
def read (text : List Char) : Except ReadFault Decimal :=
  let (negative, digits) := match text with
    | '-' :: rest => (true, rest)
    | '+' :: rest => (false, rest)
    | digits => (false, digits)
  if text.isEmpty then .error .empty
  else
    match readDigits false false 0 0 digits with
    | .error fault => .error fault
    | .ok (mantissa, scale) =>
      match ofParts? (negative && mantissa ≠ 0) mantissa scale with
      | some d => .ok d
      | none => .error .tooManyDigits

/-- Reads a decimal, without the reason of a failure. -/
def read? (text : List Char) : Option Decimal :=
  (read text).toOption

/-- The same digits moved to another scale. Digits that are lost round by the last
of them, a half away from zero. -/
def rescale (d : Decimal) (scale : Nat) : Option Decimal :=
  if d.scale ≤ scale then ofParts? d.negative (d.mantissa * powerOfTen (scale - d.scale)) scale
  else
    let shifted := d.mantissa / powerOfTen (d.scale - scale - 1)
    ofParts? d.negative (shifted / 10 + if 5 ≤ shifted % 10 then 1 else 0) scale

/-- An exponent: digits with an optional plus sign. -/
def readExponent? (text : List Char) : Option Nat :=
  let digits := match text with
    | '+' :: rest => rest
    | digits => digits
  if digits.isEmpty || !digits.all Char.isDigit then none
  else some (digitsValue digits)

/-- Reads a decimal with an exponent, such as `1.5e-7`. -/
def readScientific? (text : List Char) : Option Decimal :=
  let base := text.takeWhile fun c => c ≠ 'e' && c ≠ 'E'
  match text.drop base.length with
  | [] => none
  | _ :: exponent =>
    match read? base with
    | none => none
    | some d =>
      match exponent with
      | '-' :: digits =>
        match readExponent? digits with
        | none => none
        | some e =>
          if 28 < e then none
          else if 28 < d.scale + e then
            (d.rescale (28 - e)).bind fun r => ofParts? r.negative r.mantissa 28
          else ofParts? d.negative d.mantissa (d.scale + e)
      | _ =>
        match readExponent? exponent with
        | none => none
        | some e =>
          if e ≤ d.scale then ofParts? d.negative d.mantissa (d.scale - e)
          else if 28 < e then none
          else (ofParts? d.negative (d.mantissa * powerOfTen (e - d.scale)) 0).map normalize

end TypedQuery.Decimal
