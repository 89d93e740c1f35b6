import TypedQuery.Decimal.Power
import TypedQuery.Plan.Fault

/-!
# Arithmetic

The operators on numbers. Integers are exact within the kind of the result, floats
make a computation one of floats, and decimals one of decimals. `null` gives `null`.
-/

namespace TypedQuery

namespace Value

/-- A power of an integer, without a result where it is certainly out of range. -/
def integerPower? (a : Int) (b : Nat) : Option Int :=
  if b < 128 then some (Int.pow a b)
  else if powerOfTwo 32 ≤ b then none
  else if a = 0 || a = 1 then some a
  else if a = -1 then some (if b % 2 = 0 then 1 else -1)
  else none

/-- An operator on two decimals. -/
def decimalOperation (op : Operator) (a b : Decimal) : Except RunFault Value :=
  let finish (result : Option Decimal) : Except RunFault Value :=
    match result with
    | some d => .ok (decimal d.normalize)
    | none => .error (.overflow (.decimals a op b))
  match op with
  | .add => finish (a.add? b)
  | .subtract => finish (a.sub? b)
  | .multiply => finish (a.mul? b)
  | .divide => if b.isZero then .error .divisionByZero else finish (a.div? b)
  | .modulo => if b.isZero then .error .divisionByZero else finish (a.rem? b)
  | .power => finish (a.pow? b)
  | _ => finish none

/-- A power of two integers. A negative exponent gives a decimal. -/
def integerPower (a b : Int) (kind : IntKind) : Except RunFault Value :=
  if b < 0 then
    match Decimal.ofInt? a, Decimal.ofInt? b with
    | some x, some y => decimalOperation .power x y
    | _, _ => .error (.overflow (.integers a .power b kind))
  else
    match (integerPower? a b.toNat).bind fun n => ofInt? n kind with
    | some result => .ok result
    | none => .error (.overflow (.integers a .power b kind))

/-- An operator on two integers with a result of a kind. Division rounds toward
zero, and a remainder has the sign of the dividend. -/
def integerOperation (op : Operator) (a b : Int) (kind : IntKind) : Except RunFault Value :=
  let finish (result : Option Int) : Except RunFault Value :=
    match result.bind fun n => ofInt? n kind with
    | some value => .ok value
    | none => .error (.overflow (.integers a op b kind))
  match op with
  | .add => finish (some (a + b))
  | .subtract => finish (some (a - b))
  | .multiply => finish (some (a * b))
  | .divide => if b = 0 then .error .divisionByZero else finish (some (a.tdiv b))
  | .modulo => if b = 0 then .error .divisionByZero else finish (some (a.tmod b))
  | .power => integerPower a b kind
  | _ => finish none

/-- An operator on two floats. -/
def floatOperation (op : Operator) (x y : Float) : Float :=
  match op with
  | .add => x + y
  | .subtract => x - y
  | .multiply => x * y
  | .divide => x / y
  | .modulo => Binary.remainder x y
  | .power => x.pow y
  | _ => 0.0 / 0.0

/-- The value is a signed or an unsigned integer. -/
def isInteger : Value → Bool
  | int _ | uint _ => true
  | _ => false

/-- The value is a float. -/
def isFloat : Value → Bool
  | float _ => true
  | _ => false

/-- An arithmetic operator on two values that are not `null`. -/
def operate (op : Operator) (a b : Value) (ty : Ty) : Except RunFault Value :=
  let mismatch := RunFault.type (.operands op a.kind b.kind)
  if a.isInteger && b.isInteger then
    match a.integer?, b.integer? with
    | some x, some y => integerOperation op x y (ty.intKind?.getD .i64)
    | _, _ => .error mismatch
  else if a.isFloat || b.isFloat then
    match a.float?, b.float? with
    | some x, some y => .ok (float (floatOperation op x y))
    | _, _ => .error mismatch
  else
    match a.decimal?, b.decimal? with
    | some x, some y => decimalOperation op x y
    | _, _ => .error mismatch

/-- An arithmetic operator on two values. Texts are joined by addition. -/
def arithmetic (op : Operator) (a b : Value) (ty : Ty) : Except RunFault Value :=
  match a, b with
  | null, _ => .ok null
  | _, null => .ok null
  | text s, text t => if op = .add then .ok (text (s ++ t)) else operate op a b ty
  | _, _ => operate op a b ty

end Value

end TypedQuery
