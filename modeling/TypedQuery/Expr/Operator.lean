/-!
# Binary operators

The operators of the expression language, from equality to the logical
connectives.
-/

namespace TypedQuery

/-- A binary operator. -/
inductive Operator
  | equal
  | notEqual
  | less
  | lessEqual
  | greater
  | greaterEqual
  | add
  | subtract
  | multiply
  | divide
  | modulo
  | power
  | and
  | or
deriving DecidableEq

namespace Operator

/-- Equality and its negation. -/
def isEquality : Operator → Bool
  | equal | notEqual => true
  | _ => false

/-- The comparisons by order. -/
def isRelational : Operator → Bool
  | less | lessEqual | greater | greaterEqual => true
  | _ => false

/-- The operators whose result is the outcome of comparing the operands. -/
def isComparison (op : Operator) : Bool :=
  op.isEquality || op.isRelational

/-- The operators on numbers. -/
def isArithmetic : Operator → Bool
  | add | subtract | multiply | divide | modulo | power => true
  | _ => false

/-- The logical connectives. -/
def isLogical : Operator → Bool
  | and | or => true
  | _ => false

/-- How an operator is written. -/
def symbol : Operator → String
  | equal => "="
  | notEqual => "!="
  | less => "<"
  | lessEqual => "<="
  | greater => ">"
  | greaterEqual => ">="
  | add => "+"
  | subtract => "-"
  | multiply => "*"
  | divide => "/"
  | modulo => "%"
  | power => "^"
  | and => "and"
  | or => "or"

/-- The operators in the order of their declaration. -/
def all : List Operator :=
  [equal, notEqual, less, lessEqual, greater, greaterEqual, add, subtract, multiply, divide,
    modulo, power, and, or]

/-- The operator that is written so. -/
def ofSymbol? (symbol : String) : Option Operator :=
  all.find? fun op => op.symbol = symbol

/-- A relational operator holds of an ordering. Operators that are not relational
hold of none. -/
def holds : Operator → Ordering → Bool
  | less, order => order = .lt
  | lessEqual, order => order ≠ .gt
  | greater, order => order = .gt
  | greaterEqual, order => order ≠ .lt
  | _, _ => false

end Operator

end TypedQuery
