import TypedQuery.Value.Basic

/-!
# Order and equality of values

Numbers of all representations compare by value, and `null` comes first. Values
that have no order are equal by their parts: lists item by item, objects member by
member in any order, records by their types and values.
-/

namespace TypedQuery

namespace Binary

/-- The order of two floats; a NaN has none. -/
def order? (x y : Float) : Option Ordering :=
  if x < y then some .lt
  else if y < x then some .gt
  else if x == y then some .eq
  else none

end Binary

namespace Value

/-- The order of two numbers. Floats make the comparison one of floats, decimals one
of decimals. -/
def compareNumbers (a b : Value) : Option Ordering :=
  match a, b with
  | float x, _ => do Binary.order? x (← b.float?)
  | _, float y => do Binary.order? (← a.float?) y
  | decimal x, _ => do return x.compare (← b.decimal?)
  | _, decimal y => do return (← a.decimal?).compare y
  | int x, int y => some (Ord.compare x.toInt y.toInt)
  | int x, uint y => some (Ord.compare x.toInt y.toNat)
  | uint x, int y => some (Ord.compare (x.toNat : Int) y.toInt)
  | uint x, uint y => some (Ord.compare x.toNat y.toNat)
  | _, _ => none

/-- The order of two values; `none` where they are not comparable. -/
def compare (a b : Value) : Option Ordering :=
  match a, b with
  | null, null => some .eq
  | null, _ => some .lt
  | _, null => some .gt
  | boolean x, boolean y => some (Ord.compare x y)
  | text x, text y => some (Ord.compare x y)
  | guid x, guid y => some (x.compare y)
  | dateTime x, dateTime y => some (x.compare y)
  | enum type _ x, enum type' _ y =>
    if type = type' then some (Ord.compare x.toInt y.toInt) else none
  | _, _ => compareNumbers a b

mutual

/-- Two values are equal. -/
def same : Value → Value → Bool
  | list as, list bs => sameItems as bs
  | object type as, object type' bs =>
    type = type' && as.length = bs.length && sameMembers as bs
  | record fields as, record fields' bs => fields = fields' && sameItems as bs
  | enum type _ x, enum type' _ y => type = type' && x = y
  | a, b => compare a b = some .eq

/-- Two lists have equal items in the same order. -/
def sameItems : List Value → List Value → Bool
  | [], [] => true
  | a :: as, b :: bs => same a b && sameItems as bs
  | _, _ => false

/-- Every member of one object has an equal member in another. -/
def sameMembers : List (String × Value) → List (String × Value) → Bool
  | [], _ => true
  | (name, a) :: as, bs =>
    (match bs.lookup name with
      | some b => same a b
      | none => false) && sameMembers as bs

end

end Value

end TypedQuery
