import TypedQuery.Expr.Literal
import TypedQuery.Expr.Operator

/-!
# Expressions

The parse trees of the expression language. A bare name refers to the current
context: the host context at first, and the item under test inside the predicate
of a sequence method.
-/

namespace TypedQuery

/-- An expression. A conditional keeps the source text of its test, which messages
quote. A call without a receiver applies to the current context. -/
inductive Expr
  | literal (value : Literal)
  | var (name : String)
  | identifier (name : String)
  | access (object : Expr) (name : String)
  | invoke (method : String) (arguments : List Expr)
  | call (receiver : Expr) (method : String) (arguments : List Expr)
  | binary (op : Operator) (left right : Expr)
  | conditional (test : Expr) (testText : String) (yes no : Expr)

namespace Expr

instance : Inhabited Expr := ⟨literal .null⟩

/-- The expression is a literal. -/
def isLiteral : Expr → Bool
  | literal _ => true
  | _ => false

/-- The negation of an expression. -/
def negation (operand : Expr) : Expr :=
  invoke "not" [operand]

/-- The opposite of a number: its difference from zero. -/
def opposite (operand : Expr) : Expr :=
  binary .subtract (literal (.integer 0)) operand

end Expr

end TypedQuery
