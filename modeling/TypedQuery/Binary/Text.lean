import TypedQuery.Binary.Shortest

/-!
# Floats as text

A float is written with its shortest digits. A layout says where positional
notation ends and how whole numbers, exponents and special values look.
-/

namespace TypedQuery.Binary

/-- How a float is laid out. `positional` says for the exponent of the first digit
whether the digits are written around a point rather than with an exponent. -/
structure Layout where
  positional : Int → Bool
  wholeSuffix : String
  nan : String
  infinity : String

/-- The layout of values in messages: always positional, whole numbers without a
point. -/
def messageLayout : Layout where
  positional := fun _ => true
  wholeSuffix := ""
  nan := "NaN"
  infinity := "inf"

/-- The layout of numbers in JSON: positional from `1e-5` up to `1e16`, whole
numbers with a zero after the point. -/
def jsonLayout : Layout where
  positional := fun lead => -5 ≤ lead && lead < 16
  wholeSuffix := ".0"
  nan := "null"
  infinity := "null"

/-- Digits around a point, where `lead` is the exponent of the first digit. -/
def positionalText (layout : Layout) (digits : List Char) (lead : Int) : String :=
  if lead < 0 then
    "0." ++ String.ofList (List.replicate (-lead - 1).toNat '0' ++ digits)
  else
    let whole := lead.toNat + 1
    if digits.length ≤ whole then
      String.ofList (digits ++ List.replicate (whole - digits.length) '0') ++ layout.wholeSuffix
    else
      String.ofList (digits.take whole ++ '.' :: digits.drop whole)

/-- One digit before the point and an exponent with its sign. -/
def exponentText (digits : List Char) (lead : Int) : String :=
  let fraction := digits.drop 1
  String.ofList (digits.take 1 ++ if fraction.isEmpty then [] else '.' :: fraction) ++ "e" ++
    (if lead < 0 then "-" else "+") ++ toString lead.natAbs

/-- A float in a layout. -/
def text (layout : Layout) (x : Float) : String :=
  match ofFloat? x with
  | none =>
    if x.isNaN then layout.nan
    else if x < 0 then "-" ++ layout.infinity
    else layout.infinity
  | some b =>
    let sign := if b.negative then "-" else ""
    if b.significand = 0 then sign ++ positionalText layout ['0'] 0
    else
      let shortest := b.shortest
      let digits := Nat.toDigits 10 shortest.digits
      let lead := shortest.exponent + (digits.length - 1 : Nat)
      let kept := (digits.reverse.dropWhile (· = '0')).reverse
      sign ++ if layout.positional lead then positionalText layout kept lead
        else exponentText kept lead

end TypedQuery.Binary
