/-!
# Numbers of arguments
-/

namespace TypedQuery

/-- How many arguments a method takes: exactly so many, or a range that may be open
above. -/
inductive Arity
  | exactly (n : Nat)
  | range (least : Nat) (most? : Option Nat)
deriving DecidableEq

namespace Arity

/-- A number of arguments is admitted. -/
def admits (arity : Arity) (n : Nat) : Bool :=
  match arity with
  | exactly k => n = k
  | range least none => least ≤ n
  | range least (some most) => least ≤ n && n ≤ most

/-- How messages write a number of arguments. -/
def text : Arity → String
  | exactly n => toString n
  | range least none => "at least " ++ toString least
  | range least (some most) => toString least ++ " to " ++ toString most

end Arity

end TypedQuery
