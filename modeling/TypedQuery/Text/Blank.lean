import TypedQuery.Text.Interval

/-!
# Blank characters

The characters of the Unicode property White_Space, and texts without blanks at
their ends.
-/

namespace TypedQuery.Text

/-- The code points of the property White_Space. -/
def blankIntervals : List (Nat × Nat) := [
  (0x9, 0xd), (0x20, 0x20), (0x85, 0x85), (0xa0, 0xa0), (0x1680, 0x1680), (0x2000, 0x200a),
  (0x2028, 0x2029), (0x202f, 0x202f), (0x205f, 0x205f), (0x3000, 0x3000)]

/-- A blank: the Unicode property White_Space. -/
def isBlank (c : Char) : Bool :=
  inIntervals blankIntervals c.toNat

/-- A text without the blanks at its start. -/
def trimStart (text : List Char) : List Char :=
  text.dropWhile isBlank

/-- A text without the blanks at its ends. -/
def trim (text : List Char) : List Char :=
  ((text.dropWhile isBlank).reverse.dropWhile isBlank).reverse

end TypedQuery.Text
