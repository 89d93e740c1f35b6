import TypedQuery.Calendar.Date

/-!
# Timestamps

A timestamp without a zone: a day, a second of the day and a fraction in
nanoseconds. In a leap second the fraction runs on past one second.
-/

namespace TypedQuery

/-- A day number, a second of the day and nanoseconds. -/
structure DateTime where
  day : Int
  second : Nat
  nano : Nat
deriving DecidableEq

namespace DateTime

/-- The order in time. -/
def compare (a b : DateTime) : Ordering :=
  (Ord.compare a.day b.day).then ((Ord.compare a.second b.second).then (Ord.compare a.nano b.nano))

/-- A timestamp from a date, hours, minutes, seconds and nanoseconds. The second 60
is the leap second after the second 59. -/
def ofParts? (date : Date) (hour minute second nano : Nat) : Option DateTime :=
  if date.isValid && hour < 24 && minute < 60 && second ≤ 60 && nano < 1000000000 then
    if second = 60 then some ⟨date.toNumber, hour * 3600 + minute * 60 + 59, nano + 1000000000⟩
    else some ⟨date.toNumber, hour * 3600 + minute * 60 + second, nano⟩
  else none

/-- The timestamp in universal time of a local timestamp at an offset in seconds. -/
def minusOffset (t : DateTime) (offset : Int) : DateTime :=
  let second := (t.second : Int) - offset
  { t with day := t.day + second.fdiv 86400, second := (second.fmod 86400).toNat }

/-- A number with leading zeros up to a width. -/
def padded (width n : Nat) : String :=
  let digits := Nat.toDigits 10 n
  String.ofList (List.replicate (width - digits.length) '0' ++ digits)

/-- A year of at least four digits; years outside 0 to 9999 have a sign. -/
def yearText (year : Int) : String :=
  (if year < 0 then "-" else if 9999 < year then "+" else "") ++ padded 4 year.natAbs

/-- The fraction of a second in three, six or nine digits, the fewest that are
exact. -/
def fractionText (nano : Nat) : String :=
  if nano = 0 then ""
  else if nano % 1000000 = 0 then "." ++ padded 3 (nano / 1000000)
  else if nano % 1000 = 0 then "." ++ padded 6 (nano / 1000)
  else "." ++ padded 9 nano

/-- A timestamp with `T` between date and time. -/
def text (t : DateTime) : String :=
  let date := Date.ofNumber t.day
  yearText date.year ++ "-" ++ padded 2 date.month ++ "-" ++ padded 2 date.day ++ "T" ++
    padded 2 (t.second / 3600) ++ ":" ++ padded 2 (t.second / 60 % 60) ++ ":" ++
    padded 2 (t.second % 60 + t.nano / 1000000000) ++ fractionText (t.nano % 1000000000)

end DateTime

end TypedQuery
