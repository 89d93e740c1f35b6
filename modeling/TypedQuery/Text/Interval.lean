/-!
# Sets of code points

Properties of characters are given as lists of intervals of code points. An
interval may have a step, because many scripts alternate between the capital and
the small form of a letter.
-/

namespace TypedQuery.Text

/-- The point lies in one of the closed intervals. -/
def inIntervals (intervals : List (Nat × Nat)) (point : Nat) : Bool :=
  intervals.any fun interval => interval.1 ≤ point && point ≤ interval.2

/-- The point lies in one of the closed intervals, a whole number of steps from
its first point. An interval is given by its first point, last point and step. -/
def inSteppedIntervals (intervals : List (Nat × Nat × Nat)) (point : Nat) : Bool :=
  intervals.any fun interval =>
    interval.1 ≤ point && point ≤ interval.2.1 && (point - interval.1) % interval.2.2 = 0

/-- The image of a point under a map given by pieces: first point, last point,
step and the image of the first point. Inside a piece the distance is kept. -/
def mappedPoint? (pieces : List (Nat × Nat × Nat × Nat)) (point : Nat) : Option Nat :=
  (pieces.find? fun piece =>
    piece.1 ≤ point && point ≤ piece.2.1 && (point - piece.1) % piece.2.2.1 = 0).map
      fun piece => piece.2.2.2 + (point - piece.1)

end TypedQuery.Text
