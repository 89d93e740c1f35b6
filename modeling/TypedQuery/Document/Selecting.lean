import TypedQuery.Compile.Basic
import TypedQuery.Document.Expansion
import TypedQuery.Document.Variables

/-!
# Compiling selections

A field of a document is compiled on the node of its parent. The requirements of
object fields and of the types of results are checked on the way, sequence arguments
become method calls, and a selection set makes a record of each item.
-/

namespace TypedQuery

/-- A failure and the path of response names that leads to it. -/
structure FieldFailure where
  fault : CompileFault
  path : List String

namespace Schema

/-- Checks the requirement of the object type that values of a type, or the items of
its lists, belong to. -/
def authorizeTy (schema : Schema) (claims : Claims) (ty : Ty) : Except CompileFault Unit :=
  let base := match ty.underlying with
    | .list element => element.underlying
    | other => other
  match base with
  | .object name =>
    match schema.type? name with
    | some type => authorize name type.requirement? claims
    | none => .ok ()
  | _ => .ok ()

end Schema

namespace Scope

/-- The method call that a sequence argument stands for. -/
def sequenceCall (name : String) (value : Value) : Except CompileFault (String × Expr) :=
  if name = "skip" || name = "take" then
    match value.integer? with
    | some n =>
      if IntKind.fits .i64 n then .ok (name, .literal (.integer (Int64.ofInt n)))
      else .error (.argument name .notInteger)
    | none => .error (.argument name .notInteger)
  else
    match value.text? with
    | some source =>
      match Expr.read source with
      | .ok expr => .ok (if name = "filter" then "where" else name, expr)
      | .error e => .error (.malformed e)
    | none => .error (.argument name .notExpression)

/-- Applies sequence arguments in their order, whatever the order in which they are
written. Of several values the last one counts, and `null` counts as none. -/
def applySequence (scope : Scope) (capture : Capture) (arguments : List (String × Value))
    (caller : Node) : List String → Node → Compile Node
  | [], node => return node
  | name :: rest, node =>
    match arguments.reverse.lookup name with
    | none => applySequence scope capture arguments caller rest node
    | some .null => applySequence scope capture arguments caller rest node
    | some value => do
      let (method, expr) ← Halting.ofExcept (sequenceCall name value)
      let next ← scope.callMethod capture node method [expr] caller
      applySequence scope capture arguments caller rest next

/-- A field of an object type with the arguments of a document. -/
def compileObjectField (scope : Scope) (capture : Capture) (claims : Claims) (parent : Node)
    (type name : String) (arguments : List (String × Argument)) : Compile Node := do
  match scope.schema.field? type name with
  | none => Halting.fail (.unknownField name (.type parent.ty))
  | some field =>
    Halting.ofExcept (Schema.authorize (type ++ "." ++ name) field.requirement? claims)
    let values ← Halting.ofExcept (argumentMembers scope.vars arguments)
    let isSequence (entry : String × Value) : Bool :=
      !(field.arguments.any fun d => d.name = entry.1) && field.sequenceArguments.accepts entry.1
    let plain := values.filter fun entry => !isSequence entry
    let sequence := values.filter isSequence
    let bound ← Halting.ofExcept (scope.schema.bindArguments name field.arguments plain)
    let node ← scope.fieldCompiler capture parent field bound
    scope.applySequence capture sequence parent SequenceArguments.names node

/-- A field of a node with the arguments of a document, without its selections. -/
def compileBareField (scope : Scope) (capture : Capture) (claims : Claims) (parent : Node)
    (name : String) (arguments : List (String × Argument)) : Compile Node := do
  let node ←
    match parent.ty.underlying with
    | .object type => scope.compileObjectField capture claims parent type name arguments
    | _ =>
      if arguments.isEmpty then scope.resolve (scope.fieldCompiler capture) parent name
      else Halting.fail (.argument name (.noArguments parent.ty))
  Halting.ofExcept (scope.schema.authorizeTy claims node.ty)
  return node

/-- The type of the values from which a selection set selects, and whether they are
the items of a list. -/
def selectedTy (ty : Ty) : Except CompileFault (Ty × Bool) :=
  match ty with
  | .list element => .ok (element, true)
  | _ =>
    if ty.hasMembers then .ok (ty.underlying, false)
    else .error (.unsupported (.selection ty.underlying))

/-- A record built of columns with the variables and services of a node. -/
def columnsNode (node : Node) (columns : Entries Plan) : Run FieldFailure Node := do
  let signature ← Run.recordType (columns.map fun (name, plan) => (name, plan.ty))
  return node.map fun _ => .newRecord signature (Entries.values columns)

/-- The node of a selection set on a source, where `build` makes the record of the
parameter that stands for a value of the source. -/
def selectOn (source : Node) (path : List String) (build : Node → Run FieldFailure Node) :
    Run FieldFailure Node := do
  let (ty, overItems) ← Halting.ofExcept ((selectedTy source.ty).mapError (⟨·, path⟩))
  let name ← Run.freshName
  let record ← build (.ofPlan (.param ty name))
  return source.join record
    (if overItems then source.plan.project name record.plan
      else source.plan.given name record.plan)

mutual

/-- Compiles a field of a document on its parent. Fragments have been written out
before; one that has not is unknown here. -/
def compileSelection (scope : Scope) (capture : Capture) (claims : Claims) (path : List String)
    (parent : Node) : Selection → Run FieldFailure Node
  | .spread fragment _ => Halting.fail ⟨.unknownFragment fragment, path⟩
  | .field name alias? arguments selections _ => do
    let path := path ++ [alias?.getD name]
    let node ← (scope.compileBareField capture claims parent name arguments).mapFault (⟨·, path⟩)
    match selections with
    | [] => return node
    | first :: rest =>
      selectOn node path fun parameter => do
        let (record, columns) ←
          compileColumns scope capture claims path parameter (first :: rest) parameter []
        columnsNode record columns

/-- Compiles selections into columns after those there are. A repeated response name
keeps its first place and takes its last plan. -/
def compileColumns (scope : Scope) (capture : Capture) (claims : Claims) (path : List String)
    (parent : Node) :
    List Selection → Node → Entries Plan → Run FieldFailure (Node × Entries Plan)
  | [], node, columns => return (node, columns)
  | selection :: rest, node, columns => do
    let child ← compileSelection scope capture claims path parent selection
    compileColumns scope capture claims path parent rest (node.join child node.plan)
      (Entries.insert columns selection.responseName child.plan)

end

/-- Compiles a selection set on a node. -/
def select (scope : Scope) (claims : Claims) (path : List String) (node : Node)
    (selections : List Selection) : Run FieldFailure Node :=
  selectOn node path fun parameter => do
    let (record, columns) ←
      scope.compileColumns .parameter claims path parameter selections parameter []
    columnsNode record columns

end Scope

end TypedQuery
