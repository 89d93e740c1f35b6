import TypedQuery.Document.Execution
import TypedQuery.Json.Reader
import TypedQuery.Schema.Inference

/-!
# Checking a query against a sample

A query, which is an expression or a document, runs on a JSON input whose schema is
inferred.
-/

namespace TypedQuery

/-- What is to be checked. -/
structure CheckOptions where
  query : String
  input? : Option String
  vars? : Option String
  syntaxOnly : Bool

/-- The outcome of a check: the syntax is valid, or the query gave a result. -/
inductive CheckResult
  | valid
  | output (json : Json)

/-- Why a check failed. -/
inductive CheckFault
  | malformed (error : SyntaxError)
  | compile (fault : CompileFault)
  | run (fault : RunFault)
  | json
  | noInput
  | invalidVariables

/-- The name of the kind of a failed check. -/
def CheckFault.kind : CheckFault → String
  | malformed _ => "Parse"
  | compile fault => fault.kind
  | run fault => fault.kind
  | json => "Json"
  | noInput => "NoInput"
  | invalidVariables => "InvalidVariables"

/-- The wording of a failed check. -/
def CheckFault.message (register : Register) : CheckFault → String
  | malformed error => "Parse error: " ++ error.message
  | compile fault => "Compile error: " ++ fault.message register
  | run fault => "Evaluation error: " ++ fault.message register
  | json => "Invalid JSON"
  | noInput => "No input provided. Use --input or pipe JSON to stdin."
  | invalidVariables => "Variables must be a JSON object"

/-- The words with which the definitions of a document start. -/
def definitionWords : List String := ["query", "mutation", "fragment"]

/-- A text starts with a word and something that ends the word. -/
def startsDefinition (text : List Char) (word : String) : Bool :=
  word.toList.isPrefixOf text &&
    match text.drop word.length with
    | [] => false
    | c :: _ => Text.isBlank c || c = '\x7b' || c = '('

/-- The query is a document rather than an expression. -/
def isDocument (query : String) : Bool :=
  let text := Text.trimStart query.toList
  text.head? = some '\x7b' || definitionWords.any (startsDefinition text)

/-- Reads the variables of a check. -/
def readVariables (source : String) : Except CheckFault (Entries Value) :=
  match Json.read? source with
  | none => .error .json
  | some (.object members) => .ok (Json.membersToValue members)
  | some _ => .error .invalidVariables

/-- Checks that a query is well-formed. -/
def checkSyntax (query : String) : Except CheckFault CheckResult :=
  let outcome :=
    if isDocument query then (Document.read query).map fun _ => CheckResult.valid
    else (Expr.read query).map fun _ => CheckResult.valid
  outcome.mapError .malformed

/-- The input and the variables of a check. -/
def readInputs (options : CheckOptions) : Except CheckFault (Json × Entries Value) := do
  let source ← match options.input? with
    | some source => .ok source
    | none => .error .noInput
  let json ← match Json.read? source with
    | some json => .ok json
    | none => .error .json
  let vars ← match options.vars? with
    | some source => readVariables source
    | none => .ok []
  return (json, vars)

/-- Carries out a check. -/
def check (options : CheckOptions) : Execution CheckFault CheckResult := do
  if options.syntaxOnly then Halting.ofExcept (checkSyntax options.query)
  else
    let (json, vars) ← Halting.ofExcept (readInputs options)
    let (schema, context) := Schema.ofSample json
    let host : Host := ⟨schema, .standard, Scope.defaultDepth⟩
    if isDocument options.query then
      modify fun world => { world with store := context }
      let output ← (host.run [] options.query ⟨none, vars, .none⟩).mapFault nofun
      return .output output
    else
      let query ← (Execution.ofRun
        (Query.compile (host.scope vars) schema.contextTy options.query)).mapFault .compile
      match query.run [] context with
      | .ok value => return .output (value.toJson (some schema))
      | .error fault => Halting.fail (.run fault)

end TypedQuery
