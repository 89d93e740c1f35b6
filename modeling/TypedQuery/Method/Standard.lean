import TypedQuery.Method.Basic
import TypedQuery.Plan.Reconcile

/-!
# The standard methods

Filtering, reducing, sorting and paging of lists, membership in a list of literals,
tests of texts, and negation.
-/

namespace TypedQuery.Method

/-- The first argument as a predicate. -/
def predicate (call : MethodCall) : Compile Node := do
  let node ← call.compileArgument 0
  match node.plan.asPredicate? with
  | some plan => return { node with plan }
  | none => Halting.fail (.predicateType call.name node.ty)

/-- The receiver, filtered by the predicate if there is one. -/
def filtered (call : MethodCall) : Compile Node := do
  if call.arguments.isEmpty then return call.receiver
  else
    let test ← predicate call
    return call.receiver.join test (.filter call.receiver.plan call.elementName test.plan)

/-- The receiver, filtered and reduced. -/
def reduce (reduction : Reduction) (call : MethodCall) : Compile Node := do
  let node ← filtered call
  return node.map fun plan => plan.reduce reduction

/-- The receiver, filtered and without repetitions. -/
def distinct (call : MethodCall) : Compile Node := do
  let node ← filtered call
  return node.map Plan.distinct

/-- The receiver cut at a count, which has to be an integer that is not nullable. -/
def page (cut : Plan → Plan → Plan) (call : MethodCall) : Compile Node := do
  let count ← call.compileArgument 0
  if count.ty.intKind?.isNone || count.ty.isNullable then
    Halting.fail (.typeMismatch call.name call.receiver.ty count.ty)
  else
    return call.receiver.join count
      (cut call.receiver.plan (count.plan.convertOperand (.int .i32)))

/-- The receiver sorted by a key. -/
def orderBy (descending : Bool) (call : MethodCall) : Compile Node := do
  let key ← call.compileArgument 0
  if key.ty.isOrderable then
    return call.receiver.join key
      (call.receiver.plan.orderBy call.elementName key.plan descending)
  else Halting.fail (.unsupported (.sortKey key.ty call.name))

/-- The value of a literal in the list of `in`. -/
def listed (expr : Expr) : Except Unsupported Value :=
  match expr with
  | .literal (.text s) => .ok (.text s)
  | .literal (.integer n) => .ok (.int n)
  | .literal (.decimal _) => .error (.listed .decimal)
  | .literal (.boolean _) => .error (.listed .boolean)
  | .literal .null => .error (.listed .null)
  | _ => .error .listedExpression

/-- The type of a list of literals: all strings or all integers. -/
def listedTy (set : List Value) : Except Unsupported Ty :=
  if set.all fun value => value.text?.isSome then .ok .string
  else if set.all Value.isInteger then .ok (.int .i64)
  else .error .mixedList

/-- Whether the receiver is one of the literals. -/
def inSet (call : MethodCall) : Compile Node := do
  let receiver := call.receiver.ty
  let set ← Halting.ofExcept ((call.arguments.mapM fun argument => listed argument.expr).mapError
    .unsupported)
  let ty ← Halting.ofExcept ((listedTy set).mapError .unsupported)
  let fits := if ty = .string then receiver.isString else receiver.intKind?.isSome
  if !fits && receiver ≠ .any then Halting.fail (.typeMismatch call.name receiver ty)
  else return call.receiver.map fun plan => plan.inSet set

/-- A type of texts, or the dynamic type. -/
def isTextLike (ty : Ty) : Bool :=
  ty.isString || ty = .any

/-- A test of the receiver against a text. -/
def textTest (test : TextTest) (call : MethodCall) : Compile Node := do
  let argument ← call.compileArgument 0
  if isTextLike call.receiver.ty && isTextLike argument.ty then
    return call.receiver.join argument (.textTest test call.receiver.plan argument.plan)
  else Halting.fail (.typeMismatch call.name call.receiver.ty argument.ty)

/-- The negation of the argument. -/
def not (call : MethodCall) : Compile Node := do
  let operand ← call.compileArgument 0
  match operand.plan.asPredicate? with
  | some plan => return { operand with plan := plan.not }
  | none => Halting.fail (.typeMismatch "not" operand.ty .boolean)

/-- The standard methods in their order. -/
def standard : List Method := [
  ⟨"where", .exactly 1, .element, false, filtered⟩,
  ⟨"filter", .exactly 1, .element, false, filtered⟩,
  ⟨"first", .range 0 (some 1), .element, false, reduce .first⟩,
  ⟨"last", .range 0 (some 1), .element, false, reduce .last⟩,
  ⟨"count", .range 0 (some 1), .element, false, reduce .count⟩,
  ⟨"distinct", .range 0 (some 1), .element, false, distinct⟩,
  ⟨"take", .exactly 1, .caller, true, page .take⟩,
  ⟨"skip", .exactly 1, .caller, true, page .skip⟩,
  ⟨"orderBy", .exactly 1, .element, false, orderBy false⟩,
  ⟨"orderByDesc", .exactly 1, .element, false, orderBy true⟩,
  ⟨"in", .range 1 none, .caller, false, inSet⟩,
  ⟨"startsWith", .exactly 1, .caller, false, textTest .startsWith⟩,
  ⟨"endsWith", .exactly 1, .caller, false, textTest .endsWith⟩,
  ⟨"contains", .exactly 1, .caller, false, textTest .contains⟩,
  ⟨"notContains", .exactly 1, .caller, false, textTest .lacks⟩,
  ⟨"not", .exactly 1, .caller, false, not⟩]

end TypedQuery.Method

namespace TypedQuery.MethodLibrary

/-- The library of the standard methods. -/
def standard : MethodLibrary := ofList Method.standard

end TypedQuery.MethodLibrary
