import TypedQuery.Expr.Operator
import TypedQuery.Value.Text

/-!
# Failures of running queries

The causes for which a query that compiled does not give a value.
-/

namespace TypedQuery

/-- A value of the wrong kind where an operation meets it. Kinds are the words for
kinds of values. -/
inductive TypeFault
  | negation (kind : String)
  | condition (kind : String)
  | notBoolean (kind : String)
  | notList (kind : String)
  | notCount (kind : String)
  | textOrder (left right : String)
  | textTest (target argument : String)
  | noField (name : String)
  | noMembers (name kind : String)
  | incomparable (op : Operator) (left right : String)
  | operands (op : Operator) (left right : String)
deriving DecidableEq

/-- The wording of a wrong kind. -/
def TypeFault.message : TypeFault → String
  | negation kind => "Cannot negate " ++ kind
  | condition kind => "Condition evaluated to " ++ kind
  | notBoolean kind => "Expected a boolean, got " ++ kind
  | notList kind => "Expected a list, got " ++ kind
  | notCount kind => "Count must be an integer, got " ++ kind
  | textOrder left right => "Cannot compare " ++ left ++ " with " ++ right
  | textTest target argument => "String test on " ++ target ++ " with " ++ argument
  | noField name => "Record has no field '" ++ name ++ "'"
  | noMembers name kind => "Cannot access member '" ++ name ++ "' on " ++ kind
  | incomparable op left right => "Cannot compare " ++ left ++ " " ++ op.symbol ++ " " ++ right
  | operands op left right =>
    "Cannot apply '" ++ op.symbol ++ "' to " ++ left ++ " and " ++ right

/-- A result that is out of range. -/
inductive Overflow
  | number (n : Int) (kind : IntKind)
  | integers (left : Int) (op : Operator) (right : Int) (kind : IntKind)
  | decimals (left : Decimal) (op : Operator) (right : Decimal)
deriving DecidableEq

/-- The wording of a result that is out of range. -/
def Overflow.message : Overflow → String
  | number n kind => toString n ++ " does not fit in " ++ kind.name
  | integers left op right kind =>
    toString left ++ " " ++ op.symbol ++ " " ++ toString right ++ " does not fit in " ++ kind.name
  | decimals left op right => left.text ++ " " ++ op.symbol ++ " " ++ right.text

/-- Why a query does not give a value. -/
inductive RunFault
  | type (fault : TypeFault)
  | unbound (parameter : String)
  | missingService (service : String)
  | divisionByZero
  | overflow (cause : Overflow)
  | conversion (value : Value) (target : Ty)
  | host (message : String)

/-- The name of the kind of a failure, for programs that tell failures apart. -/
def RunFault.kind : RunFault → String
  | type _ => "TypeError"
  | unbound _ => "UnboundParameter"
  | missingService _ => "MissingService"
  | divisionByZero => "DivisionByZero"
  | overflow _ => "Overflow"
  | conversion _ _ => "Conversion"
  | host _ => "Host"

/-- The wording of a failure. -/
def RunFault.message (register : Register) : RunFault → String
  | type fault => "Type error: " ++ fault.message
  | unbound parameter => "Parameter '" ++ parameter ++ "' is not bound"
  | missingService service => "Service " ++ service ++ " is not registered"
  | divisionByZero => "Division by zero"
  | overflow cause => "Arithmetic overflow: " ++ cause.message
  | conversion value target =>
    "Cannot convert " ++ value.display register ++ " to " ++ target.text register
  | host message => message

end TypedQuery
