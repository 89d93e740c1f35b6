import TypedQuery.Numeral

/-!
# Integer kinds

The signed and unsigned integers of 16, 32 and 64 bits.
-/

namespace TypedQuery

/-- An integer type of a fixed width. -/
inductive IntKind
  | i16
  | i32
  | i64
  | u16
  | u32
  | u64
deriving DecidableEq

namespace IntKind

/-- The kinds that hold negative numbers. -/
def isSigned : IntKind → Bool
  | i16 | i32 | i64 => true
  | u16 | u32 | u64 => false

/-- The smallest number of a kind. -/
def least : IntKind → Int
  | i16 => -(powerOfTwo 15)
  | i32 => -(powerOfTwo 31)
  | i64 => -(powerOfTwo 63)
  | u16 | u32 | u64 => 0

/-- The largest number of a kind. -/
def greatest : IntKind → Int
  | i16 => powerOfTwo 15 - 1
  | i32 => powerOfTwo 31 - 1
  | i64 => powerOfTwo 63 - 1
  | u16 => powerOfTwo 16 - 1
  | u32 => powerOfTwo 32 - 1
  | u64 => powerOfTwo 64 - 1

/-- A number lies in the range of a kind. -/
def fits (kind : IntKind) (n : Int) : Bool :=
  kind.least ≤ n && n ≤ kind.greatest

/-- Every number of one kind lies in the range of another. -/
def contains (outer inner : IntKind) : Bool :=
  outer.least ≤ inner.least && inner.greatest ≤ outer.greatest

/-- The kinds to which numbers of a kind may be converted. The conversion is checked
when it is carried out, so every kind may be converted to every other one. -/
def convertsTo (_source _target : IntKind) : Bool :=
  true

/-- The kinds from the narrowest to the widest. -/
def byWidth : List IntKind := [i16, u16, i32, u32, i64, u64]

/-- The narrowest kind that holds the numbers of both kinds. -/
def common? (a b : IntKind) : Option IntKind :=
  byWidth.find? fun kind => kind.contains a && kind.contains b

/-- The name of a kind. -/
def name : IntKind → String
  | i16 => "Int16"
  | i32 => "Int32"
  | i64 => "Int64"
  | u16 => "UInt16"
  | u32 => "UInt32"
  | u64 => "UInt64"

end IntKind

end TypedQuery
