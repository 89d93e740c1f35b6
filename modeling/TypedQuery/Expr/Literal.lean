import TypedQuery.Decimal.Basic

/-!
# Literals

The constants that can be written out in expressions and in documents.
-/

namespace TypedQuery

/-- A constant that is written out. -/
inductive Literal
  | integer (n : Int64)
  | decimal (d : Decimal)
  | text (s : String)
  | boolean (b : Bool)
  | null
deriving DecidableEq

end TypedQuery
