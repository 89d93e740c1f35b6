import TypedQuery.Expr.Literal
import TypedQuery.Source.Position

/-!
# Query documents

A document holds operations, which select fields with arguments, and fragments,
which are lists of selections under a name.
-/

namespace TypedQuery

/-- The value of an argument as it is written in a document. -/
inductive Argument
  | literal (value : Literal)
  | enum (name : String)
  | var (name : String)
  | list (items : List Argument)
  | object (members : List (String × Argument))

instance : Inhabited Argument := ⟨.literal .null⟩

/-- A requested field, or the place of a fragment. -/
inductive Selection
  | field (name : String) (alias? : Option String) (arguments : List (String × Argument))
      (selections : List Selection) (position : Position)
  | spread (fragment : String) (position : Position)

instance : Inhabited Selection := ⟨.spread "" .start⟩

/-- What an operation does with the host. -/
inductive OperationKind
  | query
  | mutation
deriving DecidableEq

/-- The name of what an operation does. -/
def OperationKind.name : OperationKind → String
  | query => "Query"
  | mutation => "Mutation"

/-- A variable in the header of an operation. -/
structure VariableDefinition where
  name : String
  typeName : String
  default? : Option Argument
deriving Inhabited

/-- A query or a mutation. -/
structure Operation where
  kind : OperationKind
  name? : Option String
  vars : List VariableDefinition
  selections : List Selection

/-- A named list of selections. -/
structure Fragment where
  name : String
  typeCondition : String
  selections : List Selection

/-- Operations and fragments in their orders. -/
structure Document where
  operations : List Operation
  fragments : List Fragment

namespace Document

/-- The document without definitions. -/
def empty : Document := ⟨[], []⟩

/-- The first fragment with a name. -/
def fragment? (document : Document) (name : String) : Option Fragment :=
  document.fragments.find? fun fragment => fragment.name = name

end Document

end TypedQuery
