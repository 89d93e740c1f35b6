import TypedQuery.Expr.Operator
import TypedQuery.Value.Basic

/-!
# Plans

A plan is a compiled expression: a tree in which every node carries its static
type. Predicates, sort keys and projections refer to the item at hand through a
parameter that the node around them binds.
-/

namespace TypedQuery

/-- A function of the host. It receives the service it needs, if any, and its
arguments. -/
abbrev HostFunction := Option Value → List Value → Except String Value

/-- The tests of one text against another. -/
inductive TextTest
  | startsWith
  | endsWith
  | contains
  | lacks
deriving DecidableEq

/-- The name of a test. -/
def TextTest.name : TextTest → String
  | startsWith => "StartsWith"
  | endsWith => "EndsWith"
  | contains => "Contains"
  | lacks => "NotContains"

/-- The test with a name. -/
def TextTest.ofName? (name : String) : Option TextTest :=
  [startsWith, endsWith, contains, lacks].find? fun test => test.name = name

/-- What a list is reduced to. -/
inductive Reduction
  | first
  | last
  | count
deriving DecidableEq

/-- The name of a reduction. -/
def Reduction.name : Reduction → String
  | first => "First"
  | last => "Last"
  | count => "Count"

/-- The reduction with a name. -/
def Reduction.ofName? (name : String) : Option Reduction :=
  [first, last, count].find? fun reduction => reduction.name = name

/-- The operations on one operand. A conversion converts to the type of its node. -/
inductive UnaryOp
  | member (name : String)
  | not
  | convert
  | inSet (set : List Value)
  | distinct
  | reduce (reduction : Reduction)

/-- The operations on two operands. `compareText` gives -1, 0 or 1. -/
inductive BinaryOp
  | operator (op : Operator)
  | compareText
  | textTest (test : TextTest)
  | take
  | skip

/-- The operations that bind a parameter: to each item of a list in turn, or, for
`given`, to one value that is not `null`. -/
inductive Binder
  | filter
  | project
  | orderBy (descending : Bool)
  | given
deriving DecidableEq

/-- A compiled expression. -/
inductive Plan
  | const (ty : Ty) (value : Value)
  | param (ty : Ty) (name : String)
  | unary (ty : Ty) (op : UnaryOp) (operand : Plan)
  | binary (ty : Ty) (op : BinaryOp) (left right : Plan)
  | cond (ty : Ty) (test yes no : Plan)
  | bind (ty : Ty) (binder : Binder) (source : Plan) (name : String) (body : Plan)
  | record (ty : Ty) (fields : Signature) (values : List Plan)
  | call (ty : Ty) (name : String) (service? : Option String) (run : HostFunction)
      (arguments : List Plan)

namespace Plan

/-- The static type of a plan. -/
def ty : Plan → Ty
  | const ty _ => ty
  | param ty _ => ty
  | unary ty _ _ => ty
  | binary ty _ _ _ => ty
  | cond ty _ _ _ => ty
  | bind ty _ _ _ _ => ty
  | record ty _ _ => ty
  | call ty _ _ _ _ => ty

/-- The same node with another type. -/
def withTy (plan : Plan) (ty : Ty) : Plan :=
  match plan with
  | const _ value => const ty value
  | param _ name => param ty name
  | unary _ op operand => unary ty op operand
  | binary _ op left right => binary ty op left right
  | cond _ test yes no => cond ty test yes no
  | bind _ binder source name body => bind ty binder source name body
  | record _ fields values => record ty fields values
  | call _ name service? run arguments => call ty name service? run arguments

/-- A constant of the type of its value. -/
def ofValue (value : Value) : Plan :=
  const value.staticType value

/-- The value of a constant. -/
def constant? : Plan → Option Value
  | const _ value => some value
  | _ => none

/-- A member of an object or a field of a record. -/
def member (object : Plan) (name : String) (ty : Ty) : Plan :=
  unary ty (.member name) object

/-- An operator with its operands. -/
def operator (op : Operator) (left right : Plan) (ty : Ty) : Plan :=
  binary ty (.operator op) left right

/-- The negation of a truth value. -/
def not (operand : Plan) : Plan :=
  unary .boolean .not operand

/-- The operand as a value of a type. Nothing is added if it has that type. -/
def convert (operand : Plan) (ty : Ty) : Plan :=
  if operand.ty = ty then operand else unary ty .convert operand

/-- The order of two texts as a number. -/
def compareText (left right : Plan) : Plan :=
  binary (.int .i32) .compareText left right

/-- A test of a text against another. -/
def textTest (test : TextTest) (target argument : Plan) : Plan :=
  binary .boolean (.textTest test) target argument

/-- Membership in a set of values. -/
def inSet (value : Plan) (set : List Value) : Plan :=
  unary .boolean (.inSet set) value

/-- The items that satisfy a predicate. -/
def filter (source : Plan) (name : String) (predicate : Plan) : Plan :=
  bind source.ty .filter source name predicate

/-- What a body gives for each item. -/
def project (source : Plan) (name : String) (body : Plan) : Plan :=
  bind (.list body.ty) .project source name body

/-- The items in the order of a key. -/
def orderBy (source : Plan) (name : String) (key : Plan) (descending : Bool) : Plan :=
  bind source.ty (.orderBy descending) source name key

/-- What a body gives for a value that is not `null`. -/
def given (source : Plan) (name : String) (body : Plan) : Plan :=
  bind body.ty.orNull .given source name body

/-- A record of a record type. -/
def newRecord (fields : Signature) (values : List Plan) : Plan :=
  record (.record fields) fields values

/-- The first items. -/
def take (source count : Plan) : Plan :=
  binary source.ty .take source count

/-- The items after the first ones. -/
def skip (source count : Plan) : Plan :=
  binary source.ty .skip source count

/-- The items without repetitions. -/
def distinct (source : Plan) : Plan :=
  unary source.ty .distinct source

/-- The type of a reduced list. -/
def reducedTy (source : Ty) : Reduction → Ty
  | .count => .int .i32
  | .first | .last =>
    match source.element? with
    | some element => element.orNull
    | none => .any

/-- An item of a list, or their number. -/
def reduce (source : Plan) (reduction : Reduction) : Plan :=
  unary (reducedTy source.ty reduction) (.reduce reduction) source

end Plan

/-- A plan with the variables and the services that it uses. Variables become
parameters of the finished query and keep their values. -/
structure Node where
  plan : Plan
  constants : Entries Value
  services : List String

namespace Node

/-- A plan that uses no variables and no services. -/
def ofPlan (plan : Plan) : Node := ⟨plan, [], []⟩

/-- The static type of the plan. -/
def ty (node : Node) : Ty :=
  node.plan.ty

/-- The plan replaced by what a function makes of it. -/
def map (node : Node) (f : Plan → Plan) : Node :=
  { node with plan := f node.plan }

/-- A list of distinct services with another one, which comes last if it is new. -/
def addService (services : List String) (service : String) : List String :=
  if service ∈ services then services else services ++ [service]

/-- The node that needs another service. -/
def needService (node : Node) (service : String) : Node :=
  { node with services := addService node.services service }

/-- The node that uses another variable. -/
def withConstant (node : Node) (name : String) (value : Value) : Node :=
  { node with constants := Entries.insert node.constants name value }

/-- A plan made of the plans of two nodes, with the variables and services of the
first and then those of the second. -/
def join (a b : Node) (plan : Plan) : Node :=
  ⟨plan, Entries.extend a.constants b.constants, b.services.foldl addService a.services⟩

end Node

end TypedQuery
