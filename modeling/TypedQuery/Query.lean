import TypedQuery.Compile.Basic

/-!
# Queries

A finished query: a plan with its parameters, which are the context, one constant
for each variable that the plan uses, and the services that it needs.
-/

namespace TypedQuery

/-- What a parameter of a query stands for. -/
inductive ParameterKind
  | context
  | constant
  | service
deriving DecidableEq

/-- The name of what a parameter stands for. -/
def ParameterKind.name : ParameterKind → String
  | context => "context"
  | constant => "constant"
  | service => "service"

/-- A parameter of a query. -/
structure Parameter where
  name : String
  ty : Ty
  kind : ParameterKind

/-- A plan with its parameters and the values of its constants. -/
structure Query where
  body : Plan
  parameters : List Parameter
  arguments : List Value

namespace Query

/-- The query of a node in a context of a type. -/
def ofNode (node : Node) (contextTy : Ty) : Query where
  body := node.plan
  parameters :=
    ⟨contextName, contextTy, .context⟩ ::
      node.constants.map (fun (name, value) =>
        ⟨constantName name, value.staticType, .constant⟩) ++
      node.services.map (fun service => ⟨service, .any, .service⟩)
  arguments := Entries.values node.constants

/-- The services that a query needs. -/
def services (query : Query) : List String :=
  (query.parameters.filter fun parameter => parameter.kind = .service).map Parameter.name

/-- Binds the parameters of a query from the first to the last. -/
def bind (services : Services) (context : Value) :
    List Parameter → List Value → Environment → Except RunFault Environment
  | [], _, environment => .ok environment
  | ⟨name, _, .context⟩ :: rest, arguments, environment =>
    bind services context rest arguments ((name, context) :: environment)
  | ⟨name, _, .constant⟩ :: rest, value :: arguments, environment =>
    bind services context rest arguments ((name, value) :: environment)
  | ⟨name, _, .constant⟩ :: _, [], _ => .error (.unbound name)
  | ⟨name, _, .service⟩ :: rest, arguments, environment =>
    if Entries.contains services name then bind services context rest arguments environment
    else .error (.missingService name)

/-- The value of a query in a context. -/
def run (query : Query) (services : Services) (context : Value) : Except RunFault Value := do
  let environment ← bind services context query.parameters query.arguments []
  query.body.eval services environment

/-- Compiles a source text for a context of a type. -/
def compile (scope : Scope) (contextTy : Ty) (source : String)
    (capture : Capture := .parameter) : Compile Query := do
  let node ← scope.compileSource (Scope.context contextTy) source capture
  return ofNode node contextTy

end Query

end TypedQuery
