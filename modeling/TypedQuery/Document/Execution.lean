import TypedQuery.Document.Compiled
import TypedQuery.Json.OfValue

/-!
# Running documents

Queries share one context. Mutations run one after another, each with the context
that the ones before it have left, and a mutation that is refused leaves the store as
it was. The envelope holds the results under their response names and the errors with
their paths.
-/

namespace TypedQuery

/-- Why a field of a document has no result. -/
inductive FailureCause
  | compile (fault : CompileFault)
  | run (fault : RunFault)
  | routine (message : String)

/-- The wording of a cause. -/
def FailureCause.message (register : Register) : FailureCause → String
  | compile fault => fault.message register
  | run fault => fault.message register
  | routine message => message

/-- A field without a result, and the path to the selection that failed. -/
structure Failure where
  cause : FailureCause
  path : List String

/-- A computation that may change the world of the host. -/
abbrev Execution (ε α : Type) := Halting World ε α

namespace Execution

variable {ε α : Type}

/-- Runs a compilation with the record types of the world. Names of parameters start
anew. -/
def ofRun (run : Run ε α) : Execution ε α := fun world =>
  match run ⟨0, world.register⟩ with
  | .ok result session => .ok result { world with register := session.register }
  | .error halt session => .error halt { world with register := session.register }

/-- The record type of a list of fields in the register of the process. Documents with a register
of their own do not see it there. -/
def sharedType (fields : List (String × Ty)) : Execution ε Signature := do
  if (← get).register.shared then ofRun (Run.recordType fields)
  else return Entries.ofList fields

/-- A fresh context of the host: a copy of its store. -/
def freshContext : Execution ε Value := do
  return (← get).store

/-- Calls a routine. -/
def ofRoutine (call : EStateM String World α) : Execution String α := fun world =>
  match call world with
  | .ok result world => .ok result world
  | .error message world => .error (.fault message) world

end Execution

/-- What the routine of a mutation receives, if the caller may call it, the supplied
arguments can be bound and its services are registered. The bound arguments are a record with
one field for each declared argument. Its type is there before services are looked up. -/
def Mutation.invocation (mutation : Mutation) (schema : Schema) (services : Services)
    (claims : Claims) (context : Value) (supplied : List (String × Value)) :
    Execution CompileFault Invocation := do
  Halting.ofExcept (Schema.authorize mutation.name mutation.requirement? claims)
  let bound ← Halting.ofExcept (schema.bindArguments mutation.name mutation.arguments supplied)
  let fields ← Execution.sharedType
    (mutation.arguments.map fun argument => (argument.name, argument.ty))
  let arguments := Value.newRecord fields (Entries.values bound)
  match services.resolve mutation.services with
  | .ok resolved => return ⟨context, arguments, resolved⟩
  | .error service => Halting.fail (.missingService service)

/-- Checks the type of a result and selects from it, if there are selections. -/
def Scope.shape (scope : Scope) (claims : Claims) (path : List String) (node : Node)
    (selections : List Selection) : Run FieldFailure Node := do
  if selections.isEmpty then return node
  else
    Halting.ofExcept ((scope.schema.authorizeTy claims node.ty).mapError (⟨·, path⟩))
    scope.select claims path node selections

/-- The failure of a field while it is compiled. -/
def Failure.ofField (failure : FieldFailure) : Failure :=
  ⟨.compile failure.fault, failure.path⟩

/-- The query that gives the selections on the result of a mutation. -/
def PendingMutation.resultQuery (pending : PendingMutation) (host : Host) (claims : Claims) :
    MutationResult → Run FieldFailure Query
  | .value _ ty => do
    let node ← (host.scope []).shape claims pending.path (Scope.context ty) pending.selections
    return .ofNode node ty
  | .requery expression vars => do
    let scope := host.scope vars
    let ty := pending.mutation.contextTy
    let result ← (scope.compileSource (Scope.context ty) expression).mapFault (⟨·, pending.path⟩)
    let node ← scope.shape claims pending.path result pending.selections
    return .ofNode node ty

/-- Calls a mutation and selects from its result. -/
def PendingMutation.run (pending : PendingMutation) (host : Host) (services : Services)
    (claims : Claims) : Execution Failure Json := do
  let context ← Execution.freshContext
  let invocation ← (pending.mutation.invocation host.schema services claims context
    pending.arguments).mapFault (⟨.compile ·, pending.path⟩)
  let result ← (Execution.ofRoutine (pending.mutation.routine invocation)).mapFault
    (⟨.routine ·, pending.path⟩)
  let query ← (Execution.ofRun (pending.resultQuery host claims result)).mapFault Failure.ofField
  let context ← match result with
    | .value value _ => pure value
    | .requery _ _ => Execution.freshContext
  match query.run services context with
  | .ok value => return value.toJson (some host.schema)
  | .error fault => Halting.fail ⟨.run fault, pending.path⟩

/-- Runs the outcome of a field. Queries run in the given context. -/
def Outcome.run (outcome : Outcome) (host : Host) (services : Services) (claims : Claims)
    (context : Value) (name : String) : Execution Failure Json :=
  match outcome with
  | .query compiled =>
    match compiled.run services context with
    | .ok value => return value.toJson (some host.schema)
    | .error fault => Halting.fail ⟨.run fault, [name]⟩
  | .mutation pending => pending.run host services claims
  | .failed failure => Halting.fail (.ofField failure)

/-- An entry of the list of errors. -/
def errorEntry (message : String) (path : List String) : Json :=
  .object [("message", .string message), ("path", .array (path.map .string))]

/-- Runs outcomes one after another. Gives the results under their names, where
failures are `null`, and the entries of the failures. -/
def runOutcomes (host : Host) (services : Services) (claims : Claims) (context : Value) :
    List (String × Outcome) → Execution Empty (List (String × Json) × List Json)
  | [] => return ([], [])
  | (name, outcome) :: rest => do
    let result ← (outcome.run host services claims context name).attempt
    let register := (← get).register
    let (data, errors) ← runOutcomes host services claims context rest
    match result with
    | .ok json => return ((name, json) :: data, errors)
    | .error failure =>
      return ((name, .null) :: data,
        errorEntry (failure.cause.message register) failure.path :: errors)

/-- The results and the errors of a document. -/
def envelope (data : Json) (errors : List Json) : Json :=
  .object (("data", data) :: if errors.isEmpty then [] else [("errors", .array errors)])

/-- Runs a compiled document. -/
def Host.execute (host : Host) (services : Services) (document : CompiledDocument) :
    Execution Empty Json := do
  let context ← match document.kind with
    | .query => Execution.freshContext
    | .mutation => pure .null
  let (data, errors) ← runOutcomes host services document.claims context document.fields
  return envelope (.object data) errors

/-- The envelope of a document that fails as a whole. -/
def failedEnvelope (register : Register) (fault : CompileFault) : Json :=
  envelope .null [.object [("message", .string (fault.message register))]]

/-- Compiles and runs a source text. -/
def Host.run (host : Host) (services : Services) (source : String) (request : Request) :
    Execution Empty Json := do
  match ← (Execution.ofRun (host.compileDocument source request)).attempt with
  | .ok document => host.execute services document
  | .error fault => return failedEnvelope (← get).register fault

end TypedQuery
