import TypedQuery.Binary.Decimal
import TypedQuery.Calendar.DateTime
import TypedQuery.Entries
import TypedQuery.Guid
import TypedQuery.Ty.Basic

/-!
# Values

The data that a query reads and produces. Objects come from the host and carry the
name of a declared type; records are produced by selections and carry their record
type.
-/

namespace TypedQuery

/-- A value. Integers, floats and decimals are kept apart; `uint` holds the unsigned
integers beyond the signed range. -/
inductive Value
  | null
  | boolean (b : Bool)
  | int (n : Int64)
  | uint (n : UInt64)
  | float (x : Float)
  | decimal (d : Decimal)
  | text (s : String)
  | guid (g : Guid)
  | dateTime (t : DateTime)
  | enum (type : String) (member? : Option String) (number : Int64)
  | list (items : List Value)
  | object (type : String) (members : List (String × Value))
  | record (fields : Signature) (values : List Value)

namespace Value

instance : Inhabited Value := ⟨null⟩

/-- The word that messages use for the kind of a value. -/
def kind : Value → String
  | null => "null"
  | boolean _ => "boolean"
  | int _ | uint _ => "integer"
  | float _ => "float"
  | decimal _ => "decimal"
  | text _ => "string"
  | guid _ => "guid"
  | dateTime _ => "datetime"
  | enum _ _ _ => "enum"
  | list _ => "list"
  | object _ _ => "object"
  | record _ _ => "record"

/-- The value is `null`. -/
def isNull : Value → Bool
  | null => true
  | _ => false

mutual

/-- The type of a value that comes from outside of a query. -/
def staticType : Value → Ty
  | null => .null
  | boolean _ => .boolean
  | int _ => .int .i64
  | uint _ => .int .u64
  | float _ => .float
  | decimal _ => .decimal
  | text _ => .string
  | guid _ => .guid
  | dateTime _ => .dateTime
  | enum type _ _ => .enum type
  | list items => .list (itemType items)
  | object type _ => .object type
  | record fields _ => .record fields

/-- The type of the first item that is not `null`. -/
def itemType : List Value → Ty
  | [] => .any
  | item :: rest => if item.isNull then itemType rest else staticType item

end

/-- A truth value. -/
def bool? : Value → Option Bool
  | boolean b => some b
  | _ => none

/-- A text. -/
def text? : Value → Option String
  | text s => some s
  | _ => none

/-- An integer, or the number of an enumeration member. -/
def integer? : Value → Option Int
  | int n => some n.toInt
  | uint n => some n.toNat
  | enum _ _ number => some number.toInt
  | _ => none

/-- A number as a decimal, where it fits. -/
def decimal? : Value → Option Decimal
  | int n => some (.ofInt64 n)
  | uint n => some (.ofUInt64 n)
  | decimal d => some d
  | float x => Decimal.ofFloat? x
  | _ => none

/-- A number as the nearest float. -/
def float? : Value → Option Float
  | int n => some (Binary.ofInt n.toInt)
  | uint n => some (Binary.ofInt n.toNat)
  | decimal d => some d.toFloat
  | float x => some x
  | _ => none

/-- The items of a list. -/
def items? : Value → Option (List Value)
  | list items => some items
  | _ => none

/-- The value of a field of a record. -/
def fieldOf? (fields : Signature) (values : List Value) (name : String) : Option Value :=
  (fields.index? name).bind fun index => values[index]?

/-- The value of a member of an object or of a field of a record. -/
def member? (value : Value) (name : String) : Option Value :=
  match value with
  | object _ members => Entries.find? members name
  | record fields values => fieldOf? fields values name
  | _ => none

/-- A record of given values in the order of its fields. Missing values are `null`. -/
def newRecord (fields : Signature) (values : List Value) : Value :=
  record fields (values.take fields.length ++
    List.replicate (fields.length - values.length) null)

/-- An integer of a kind, if it is in range. -/
def ofInt? (n : Int) (kind : IntKind) : Option Value :=
  if !kind.fits n then none
  else if IntKind.fits .i64 n then some (int (Int64.ofInt n))
  else if IntKind.fits .u64 n then some (uint (UInt64.ofNat n.toNat))
  else none

/-- A natural number of 64 bits, signed where it fits. -/
def ofUInt64 (n : UInt64) : Value :=
  if n.toNat < powerOfTwo 63 then int (Int64.ofInt n.toNat) else uint n

end Value

end TypedQuery
