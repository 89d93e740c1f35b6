import TypedQuery.Document.Reader
import TypedQuery.Document.Selecting
import TypedQuery.Query

/-!
# Compiled documents

An operation of a document with one outcome for each response name: a query, a
mutation that waits to be called, or a failure. A field that fails leaves its
siblings alone.
-/

namespace TypedQuery

/-- A mutation with its supplied arguments and the selections on its result. -/
structure PendingMutation where
  mutation : Mutation
  arguments : List (String × Value)
  selections : List Selection
  path : List String

/-- What became of a field. -/
inductive Outcome
  | query (query : Query)
  | mutation (pending : PendingMutation)
  | failed (failure : FieldFailure)

/-- A compiled operation. -/
structure CompiledDocument where
  kind : OperationKind
  fields : Entries Outcome
  claims : Claims

/-- What a document is compiled for: the operation that is meant, the variables that
are supplied and the claims of the caller. -/
structure Request where
  operation? : Option String
  vars : Entries Value
  claims : Claims

/-- The request for the first operation without variables and claims. -/
def Request.empty : Request := ⟨none, [], .none⟩

namespace Document

/-- The operation with a name, or the first one. -/
def operation (document : Document) (name? : Option String) : Except CompileFault Operation :=
  let found := match name? with
    | some name => document.operations.find? fun operation => operation.name? = some name
    | none => document.operations.head?
  match found with
  | some operation => .ok operation
  | none => .error (.unknownOperation name?)

end Document

/-- A mutation field with the values of its arguments. -/
def prepareMutation (scope : Scope) (path : List String) (name : String)
    (arguments : List (String × Argument)) (selections : List Selection) :
    Except FieldFailure PendingMutation :=
  match scope.schema.mutation? name with
  | none => .error ⟨.unknownField name .mutations, path⟩
  | some mutation =>
    match argumentMembers scope.vars arguments with
    | .ok values => .ok ⟨mutation, values, selections, path⟩
    | .error fault => .error ⟨fault, path⟩

/-- The outcome of a field at the top of an operation. -/
def compileTopField (scope : Scope) (capture : Capture) (claims : Claims) (kind : OperationKind)
    (selection : Selection) : Run Empty Outcome :=
  match kind, selection with
  | .mutation, .field name _ arguments selections _ =>
    match prepareMutation scope [selection.responseName] name arguments selections with
    | .ok pending => return .mutation pending
    | .error failure => return .failed failure
  | _, _ => do
    let contextTy := scope.schema.contextTy
    match ←
      (scope.compileSelection capture claims [] (Scope.context contextTy) selection).attempt with
    | .ok node => return .query (.ofNode node contextTy)
    | .error failure => return .failed failure

/-- Adds the outcomes of expanded selections to those there are. -/
def compileTopFields (scope : Scope) (capture : Capture) (claims : Claims)
    (kind : OperationKind) :
    List Selection → Entries Outcome → Run Empty (Entries Outcome)
  | [], outcomes => return outcomes
  | selection :: rest, outcomes => do
    let outcome ← compileTopField scope capture claims kind selection
    compileTopFields scope capture claims kind rest
      (Entries.insert outcomes selection.responseName outcome)

/-- Adds the outcomes of the selections of an operation to those there are. A
selection whose fragments cannot be written out fails as a whole. -/
def compileSelections (document : Document) (scope : Scope) (capture : Capture)
    (claims : Claims) (kind : OperationKind) :
    List Selection → Entries Outcome → Run Empty (Entries Outcome)
  | [], outcomes => return outcomes
  | selection :: rest, outcomes =>
    match document.expand selection with
    | .error fault =>
      let name := selection.responseName
      compileSelections document scope capture claims kind rest
        (Entries.insert outcomes name (.failed ⟨fault, [name]⟩))
    | .ok expanded => do
      let outcomes ← compileTopFields scope capture claims kind expanded outcomes
      compileSelections document scope capture claims kind rest outcomes

/-- What documents are compiled against. -/
structure Host where
  schema : Schema
  methods : MethodLibrary
  depth : Nat

/-- The scope of expressions with variables. -/
def Host.scope (host : Host) (vars : Entries Value) : Scope :=
  ⟨host.schema, host.methods, vars, host.depth⟩

/-- Compiles an operation of a document. -/
def Host.compileOperation (host : Host) (document : Document) (request : Request)
    (capture : Capture := .parameter) : Compile CompiledDocument := do
  let operation ← Halting.ofExcept (document.operation request.operation?)
  let vars ← Halting.ofExcept
    (host.schema.bindVariables operation.vars request.vars)
  let scope := host.scope vars
  let fields ← (compileSelections document scope capture request.claims operation.kind
    operation.selections []).mapFault nofun
  return ⟨operation.kind, fields, request.claims⟩

/-- Compiles a source text. Malformed texts, unknown operations and invalid variables
fail as a whole; failures of fields are among the outcomes. -/
def Host.compileDocument (host : Host) (source : String) (request : Request)
    (capture : Capture := .parameter) : Compile CompiledDocument := do
  let document ← Halting.ofExcept ((Document.read source).mapError .malformed)
  host.compileOperation document request capture

end TypedQuery
