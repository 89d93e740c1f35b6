import TypedQuery.Binary.Reader
import TypedQuery.Calendar.Reader
import TypedQuery.Decimal.Reader
import TypedQuery.Plan.Fault
import TypedQuery.Text.Blank

/-!
# Conversion of values

What a value becomes at another type. `null` stays `null` at every type, and numbers
are checked against the range of their new type.
-/

namespace TypedQuery

/-- The largest number of 128 bits with a sign. -/
def wideLimit : Int := powerOfTwo 127

/-- Reads an integer of 128 bits: digits with an optional sign. -/
def readInteger? (text : List Char) : Option Int :=
  let (negative, digits) := match text with
    | '-' :: rest => (true, rest)
    | '+' :: rest => (false, rest)
    | digits => (false, digits)
  if digits.isEmpty || !digits.all Char.isDigit then none
  else
    let n : Int := digitsValue digits
    let n := if negative then -n else n
    if -wideLimit ≤ n ∧ n < wideLimit then some n else none

namespace Value

/-- The number of a value that stands for an integer: integers, enumeration members,
decimals and floats without a fraction, and texts of digits. -/
def toInteger? : Value → Option Int
  | int n => some n.toInt
  | uint n => some n.toNat
  | enum _ _ number => some number.toInt
  | decimal d => if d.isWhole then some d.truncate else none
  | float x =>
    ((Binary.ofFloat? x).bind Binary.toInt?).map fun n => max (-wideLimit) (min (wideLimit - 1) n)
  | text s => readInteger? (Text.trim s.toList)
  | _ => none

/-- The value as a decimal; texts are read. -/
def toDecimal? : Value → Option Decimal
  | text s => Decimal.read? (Text.trim s.toList)
  | value => value.decimal?

/-- The value as a float; texts are read. -/
def toFloat? : Value → Option Float
  | text s => Binary.read? (Text.trim s.toList)
  | value => value.float?

/-- Converts a value that is not `null` to a type. -/
def convertSome (value : Value) : Ty → Except RunFault Value
  | .any => .ok value
  | .nullable inner => convertSome value inner
  | .int kind =>
    match value.toInteger? with
    | none => .error (.conversion value (.int kind))
    | some n =>
      match ofInt? n kind with
      | some result => .ok result
      | none => .error (.overflow (.number n kind))
  | .decimal => orFault .decimal (value.toDecimal?.map decimal)
  | .float => orFault .float (value.toFloat?.map float)
  | .string => orFault .string (value.plain?.map text)
  | .guid =>
    match value with
    | text s => orFault .guid ((Guid.read? s).map guid)
    | guid _ => .ok value
    | _ => .error (.conversion value .guid)
  | .dateTime =>
    match value with
    | text s => orFault .dateTime ((DateTime.read? s).map dateTime)
    | dateTime _ => .ok value
    | _ => .error (.conversion value .dateTime)
  | .enum name =>
    match value with
    | int n => .ok (enum name none n)
    | uint n =>
      if n.toNat < powerOfTwo 63 then .ok (enum name none (Int64.ofInt n.toNat))
      else .error (.conversion value (.enum name))
    | enum _ _ _ => .ok value
    | _ => .error (.conversion value (.enum name))
  | .boolean =>
    match value with
    | boolean _ => .ok value
    | _ => .error (.conversion value .boolean)
  | .list element =>
    match value with
    | list _ => .ok value
    | _ => .error (.conversion value (.list element))
  | .object name =>
    match value with
    | object _ _ => .ok value
    | _ => .error (.conversion value (.object name))
  | .record fields =>
    match value with
    | record _ _ => .ok value
    | _ => .error (.conversion value (.record fields))
  | .null => .error (.conversion value .null)
where
  /-- The converted value, or the fault that there is none. -/
  orFault (target : Ty) : Option Value → Except RunFault Value
    | some result => .ok result
    | none => .error (.conversion value target)

/-- Converts a value to a type. -/
def convert (value : Value) (target : Ty) : Except RunFault Value :=
  match value with
  | null => .ok null
  | value => convertSome value target

end Value

end TypedQuery
