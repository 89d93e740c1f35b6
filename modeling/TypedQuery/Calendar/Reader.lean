import TypedQuery.Calendar.DateTime
import TypedQuery.Numeral
import TypedQuery.Text.Blank
import TypedQuery.Text.Letter

/-!
# Reading timestamps

Four forms are tried in turn: a date, a local timestamp with `T`, a local
timestamp with a space, and a timestamp with an offset, which is brought to
universal time. The first three allow blanks before each number and fewer digits
than usual; the last one is strict.
-/

namespace TypedQuery.DateTime

/-- Reads between `least` and `most` decimal digits; gives the number, how many
digits it has and the rest. -/
def number? (least most : Nat) (text : List Char) : Option (Nat × Nat × List Char) :=
  let digits := (text.take most).takeWhile Char.isDigit
  if digits.length < least then none
  else some (digitsValue digits, digits.length, text.drop digits.length)

/-- Reads a number of at most two digits after blanks. -/
def field? (text : List Char) : Option (Nat × List Char) :=
  (number? 1 2 (Text.trimStart text)).map fun (n, _, rest) => (n, rest)

/-- Reads a year after blanks: at most four digits, or a sign and any number of
them. -/
def year? (text : List Char) : Option (Int × List Char) :=
  match Text.trimStart text with
  | '-' :: rest => (number? 1 rest.length rest).map fun (n, _, rest) => (-(n : Int), rest)
  | '+' :: rest => (number? 1 rest.length rest).map fun (n, _, rest) => ((n : Int), rest)
  | rest => (number? 1 4 rest).map fun (n, _, rest) => ((n : Int), rest)

/-- Passes one given character. -/
def pass? (c : Char) : List Char → Option (List Char)
  | [] => none
  | d :: rest => if d = c then some rest else none

/-- Reads the digits of a fraction as nanoseconds. Digits after the ninth are
passed over. -/
def fraction? (text : List Char) : Option (Nat × List Char) :=
  (number? 1 9 text).map fun (n, count, rest) =>
    (n * powerOfTen (9 - count), rest.dropWhile Char.isDigit)

/-- Reads a point and a fraction, or nothing. -/
def optionalFraction? (text : List Char) : Option (Nat × List Char) :=
  match text with
  | '.' :: rest => fraction? rest
  | rest => some (0, rest)

/-- Reads a date in lenient form. -/
def date? (text : List Char) : Option (Date × List Char) := do
  let (year, rest) ← year? text
  let rest ← pass? '-' rest
  let (month, rest) ← field? rest
  let rest ← pass? '-' rest
  let (day, rest) ← field? rest
  pure (⟨year, month, day⟩, rest)

/-- Reads a time of day in lenient form to the end of the text. -/
def timeOn? (date : Date) (text : List Char) : Option DateTime := do
  let (hour, rest) ← field? text
  let rest ← pass? ':' rest
  let (minute, rest) ← field? rest
  let rest ← pass? ':' rest
  let (second, rest) ← field? rest
  let (nano, rest) ← optionalFraction? rest
  if rest.isEmpty then ofParts? date hour minute second nano else none

/-- Reads a bare date, at midnight. -/
def readDate? (text : List Char) : Option DateTime := do
  let (date, rest) ← date? text
  if rest.isEmpty then ofParts? date 0 0 0 0 else none

/-- Reads a local timestamp with `T` between date and time. -/
def readLocal? (text : List Char) : Option DateTime := do
  let (date, rest) ← date? text
  let rest ← pass? 'T' rest
  timeOn? date rest

/-- Reads a local timestamp with blanks, or nothing, between date and time. -/
def readSpaced? (text : List Char) : Option DateTime := do
  let (date, rest) ← date? text
  timeOn? date (Text.trimStart rest)

/-- Reads an offset in seconds: `Z`, or a sign, two digits, a colon and two
digits. -/
def offset? (text : List Char) : Option (Int × List Char) :=
  match text with
  | [] => none
  | sign :: rest =>
    if sign = 'Z' || sign = 'z' then some (0, rest)
    else do
      let negative ←
        if sign = '+' then some false
        else if sign = '-' || sign = Char.ofNat 0x2212 then some true
        else none
      let (hours, _, rest) ← number? 2 2 rest
      let rest ← pass? ':' rest
      let (minutes, _, rest) ← number? 2 2 rest
      if hours ≤ 23 && minutes ≤ 59 then
        let seconds : Int := (hours * 3600 + minutes * 60 : Nat)
        pure (if negative then -seconds else seconds, rest)
      else none

/-- Reads a timestamp with an offset. -/
def readZoned? (text : List Char) : Option DateTime := do
  let (year, _, rest) ← number? 4 4 text
  let rest ← pass? '-' rest
  let (month, _, rest) ← number? 2 2 rest
  let rest ← pass? '-' rest
  let (day, _, rest) ← number? 2 2 rest
  let rest ←
    match rest with
    | [] => none
    | c :: rest => if c = 'T' || c = 't' || c = ' ' then some rest else none
  let (hour, _, rest) ← number? 2 2 rest
  let rest ← pass? ':' rest
  let (minute, _, rest) ← number? 2 2 rest
  let rest ← pass? ':' rest
  let (second, _, rest) ← number? 2 2 rest
  let (nano, rest) ← optionalFraction? rest
  let (offset, rest) ← offset? rest
  if rest.isEmpty then
    (ofParts? ⟨year, month, day⟩ hour minute second nano).map (·.minusOffset offset)
  else none

/-- Reads a timestamp in any of the four forms. -/
def read? (text : String) : Option DateTime :=
  let chars := text.toList
  (readDate? chars).or ((readLocal? chars).or ((readSpaced? chars).or (readZoned? chars)))

/-- Passes a number of decimal digits of any script. -/
def passDigits? : Nat → List Char → Option (List Char)
  | 0, text => some text
  | _ + 1, [] => none
  | n + 1, c :: rest => if Text.isDecimalDigit c then passDigits? n rest else none

/-- The shape of the end of a timestamp: nothing, `Z` or an offset. -/
def isZoneShaped (text : List Char) : Bool :=
  match text with
  | [] => true
  | ['Z'] => true
  | sign :: rest =>
    (sign = '+' || sign = '-') &&
      ((do
        let rest ← passDigits? 2 rest
        let rest ← pass? ':' rest
        passDigits? 2 rest) == some [])

/-- The shape after the minutes: seconds with an optional fraction, and a zone. -/
def isSecondsShaped (text : List Char) : Bool :=
  match text with
  | ':' :: rest =>
    match passDigits? 2 rest with
    | none => false
    | some ('.' :: rest) =>
      !(rest.takeWhile Text.isDecimalDigit).isEmpty &&
        isZoneShaped (rest.dropWhile Text.isDecimalDigit)
    | some rest => isZoneShaped rest
  | rest => isZoneShaped rest

/-- The shape after the date: nothing, or a time of day. -/
def isTimeShaped (text : List Char) : Bool :=
  match text with
  | [] => true
  | c :: rest =>
    (c = 'T' || c = ' ') &&
      match (do
        let rest ← passDigits? 2 rest
        let rest ← pass? ':' rest
        passDigits? 2 rest) with
      | none => false
      | some rest => isSecondsShaped rest

/-- The text looks like a date or a timestamp. Its fields need not be valid. -/
def isShaped (text : String) : Bool :=
  match (do
    let rest ← passDigits? 4 text.toList
    let rest ← pass? '-' rest
    let rest ← passDigits? 2 rest
    let rest ← pass? '-' rest
    passDigits? 2 rest) with
  | none => false
  | some rest => isTimeShaped rest

end TypedQuery.DateTime
