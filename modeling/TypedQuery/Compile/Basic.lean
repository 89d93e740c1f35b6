import TypedQuery.Expr.Reader
import TypedQuery.Method.Standard
import TypedQuery.Schema.Accept

/-!
# Compiling expressions

An expression is compiled in a context: names refer to fields of the context,
variables become constants of the query, and calls go through the method library.
A computed field is compiled from its own source with its arguments as variables.
-/

namespace TypedQuery

/-- What an expression is compiled against. `depth` bounds how deeply computed fields
may refer to each other. -/
structure Scope where
  schema : Schema
  methods : MethodLibrary
  vars : Entries Value
  depth : Nat

/-- The parameter that stands for the context of the host. -/
def contextName : String := "ctx"

/-- The parameter that stands for a variable. -/
def constantName (name : String) : String :=
  "$" ++ name

/-- How a variable enters a plan with its value. -/
abbrev Capture := String → Value → Node

/-- The capture that makes a variable a parameter of the finished query, which keeps the
value. -/
def Capture.parameter : Capture := fun name value =>
  (Node.ofPlan (.param value.staticType (constantName name))).withConstant name value

namespace Scope

/-- The bound on the depth of computed fields unless another is given. -/
def defaultDepth : Nat := 1000

/-- The scope with further variables, which hide older ones of the same name. -/
def withVariables (scope : Scope) (more : Entries Value) : Scope :=
  { scope with vars := Entries.extend scope.vars more }

/-- The node of the context of the host. -/
def context (ty : Ty) : Node :=
  .ofPlan (.param ty contextName)

/-- The node of a variable. -/
def variableNode (scope : Scope) (capture : Capture) (name : String) : Compile Node :=
  match Entries.find? scope.vars name with
  | none => Halting.fail (.unknownVariable name)
  | some value => return capture name value

end Scope

/-- How the value of a field of an object type is compiled on a parent, with bound
arguments. -/
abbrev FieldCompiler := Node → FieldDefinition → Entries Value → Compile Node

/-- A constant that is written out. -/
def Literal.node (value : Literal) : Node :=
  .ofPlan (match value with
    | .integer n =>
      if IntKind.fits .i32 n.toInt then .const (.int .i32) (.int n) else .const (.int .i64) (.int n)
    | .decimal d => .ofValue (.decimal d)
    | .text s => .ofValue (.text s)
    | .boolean b => .ofValue (.boolean b)
    | .null => .ofValue .null)

namespace Scope

/-- A field of a node by its name. Fields of object types get the defaults of their
arguments. -/
def resolve (scope : Scope) (fields : FieldCompiler) (parent : Node) (name : String) :
    Compile Node :=
  match parent.ty.underlying with
  | .object type =>
    match scope.schema.field? type name with
    | none => Halting.fail (.unknownField name (.type parent.ty))
    | some field => do
      let arguments ← Halting.ofExcept (scope.schema.bindArguments name field.arguments [])
      fields parent field arguments
  | .record signature =>
    match Signature.type? signature name with
    | some ty => return parent.map fun plan => plan.member name ty
    | none => Halting.fail (.unknownField name (.type parent.ty))
  | .any => return parent.map fun plan => plan.member name .any
  | other => Halting.fail (.unknownField name (.type other))

mutual

/-- Compiles an expression in a context. -/
def compileExpr (scope : Scope) (capture : Capture) (fields : FieldCompiler) (context : Node) :
    Expr → Compile Node
  | .literal value => return value.node
  | .var name => scope.variableNode capture name
  | .identifier name => scope.resolve fields context name
  | .access object name => do
    let parent ← compileExpr scope capture fields context object
    scope.resolve fields parent name
  | .invoke method arguments =>
    scope.methods.call context method (callArguments scope capture fields arguments) context
  | .call receiver method arguments => do
    let node ← compileExpr scope capture fields context receiver
    scope.methods.call node method (callArguments scope capture fields arguments) context
  | .binary op left right => do
    let l ← compileExpr scope capture fields context left
    let r ← compileExpr scope capture fields context right
    let plan ← Halting.ofExcept (Plan.reconcile scope.schema op l.plan r.plan)
    return l.join r plan
  | .conditional test testText yes no => do
    let t ← compileExpr scope capture fields context test
    match t.plan.asPredicate? with
    | none => Halting.fail (.conditionType testText t.ty)
    | some condition =>
      let y ← compileExpr scope capture fields context yes
      let n ← compileExpr scope capture fields context no
      let (first, second, ty) := y.plan.unifyBranches n.plan
      return (t.join y condition).join n (.cond ty condition first second)

/-- The arguments of a call with their compilations. -/
def callArguments (scope : Scope) (capture : Capture) (fields : FieldCompiler) :
    List Expr → List CallArgument
  | [] => []
  | expr :: rest =>
    ⟨expr, fun context => compileExpr scope capture fields context expr⟩ ::
      callArguments scope capture fields rest

end

/-- Compiles a source text in a context. -/
def compileText (scope : Scope) (capture : Capture) (fields : FieldCompiler) (context : Node)
    (source : String) : Compile Node := do
  let expr ← Halting.ofExcept ((Expr.read source).mapError .malformed)
  compileExpr scope capture fields context expr

/-- Compiles the inputs of a service one after another. The result has the variables
and services of the parent and of all inputs. -/
def compileInputs (compile : String → Compile Node) (parent : Node) :
    List String → Compile (Node × List Plan)
  | [] => return (parent, [])
  | source :: rest => do
    let input ← compile source
    let (node, plans) ← compileInputs compile (parent.join input parent.plan) rest
    return (node, input.plan :: plans)

/-- The function of the host behind a field of a service. -/
def serviceFunction (service : String) (run : Value → List Value → Except String Value) :
    HostFunction
  | none, _ => .error ("service " ++ service ++ " is not available")
  | some value, arguments => run value arguments

/-- Compiles what gives a field its value on a parent, where `compile` compiles a source. -/
def compileResolver (compile : String → Compile Node) (parent : Node) (field : FieldDefinition) :
    Compile Node :=
  match field.resolver with
  | .member host => return parent.map fun plan => plan.member host field.ty
  | .computed source => compile source
  | .service service inputs run => do
    let (node, plans) ← compileInputs compile parent inputs
    return (node.map fun _ =>
      .call field.ty field.name (some service) (serviceFunction service run) plans).needService
        service

/-- Compiles a field on a parent. Sources see the arguments of the field as
variables. -/
def compileField (capture : Capture) (schema : Schema) (methods : MethodLibrary) :
    (depth : Nat) → (vars : Entries Value) → FieldCompiler
  | 0, _, parent, field, _ => compileResolver (fun _ => Halting.tooDeep) parent field
  | depth + 1, vars, parent, field, arguments =>
    let inner : Scope := ⟨schema, methods, Entries.extend vars arguments, depth⟩
    compileResolver
      (inner.compileText capture (compileField capture schema methods depth inner.vars) parent)
      parent field

/-- A member is read at every depth. -/
theorem compileField_member {capture : Capture} {schema : Schema} {methods : MethodLibrary}
    {field : FieldDefinition} {host : String} (hresolver : field.resolver = .member host)
    (depth : Nat) (vars : Entries Value) (parent : Node) (bound : Entries Value) :
    compileField capture schema methods depth vars parent field bound =
      pure (parent.map fun plan => plan.member host field.ty) := by
  cases depth <;> (unfold compileField compileResolver; rw [hresolver])

/-- How fields are compiled in a scope. -/
def fieldCompiler (scope : Scope) (capture : Capture) : FieldCompiler :=
  compileField capture scope.schema scope.methods scope.depth scope.vars

/-- Compiles an expression in a context. -/
def compile (scope : Scope) (context : Node) (expr : Expr) (capture : Capture := .parameter) :
    Compile Node :=
  scope.compileExpr capture (scope.fieldCompiler capture) context expr

/-- Compiles a source text in a context. -/
def compileSource (scope : Scope) (context : Node) (source : String)
    (capture : Capture := .parameter) : Compile Node :=
  scope.compileText capture (scope.fieldCompiler capture) context source

/-- Calls a method on a node with expressions as arguments. -/
def callMethod (scope : Scope) (capture : Capture) (receiver : Node) (method : String)
    (arguments : List Expr) (caller : Node) : Compile Node :=
  scope.methods.call receiver method
    (scope.callArguments capture (scope.fieldCompiler capture) arguments) caller

end Scope

end TypedQuery
