import TypedQuery.Calendar.Reader
import TypedQuery.Compile.Fault
import TypedQuery.Plan.Basic
import TypedQuery.Schema.Basic

/-!
# Reconciling operands

The plan of a binary operator. Operands of different types are brought to one type
where nothing is lost by it: texts become identifiers, timestamps or enumeration
members, integers are widened, and nullable operands lift the other side. Operands
that still differ are refused.
-/

namespace TypedQuery

namespace Plan

/-- The refusal of two operands. -/
def mismatch (op : Operator) (left right : Plan) : CompileFault :=
  .typeMismatch op.symbol left.ty right.ty

/-- A condition as a Boolean. Nullable and dynamic conditions are compared with
`true`. -/
def asPredicate? (plan : Plan) : Option Plan :=
  match plan.ty with
  | .boolean => some plan
  | .nullable .boolean =>
    some (operator .equal plan (const (.nullable .boolean) (.boolean true)) .boolean)
  | .any => some (operator .equal plan (ofValue (.boolean true)) .boolean)
  | _ => none

/-- A logical connective of two conditions. -/
def reconcileLogical (op : Operator) (left right : Plan) : Except CompileFault Plan :=
  match left.asPredicate?, right.asPredicate? with
  | some l, some r => .ok (operator op l r .boolean)
  | _, _ => .error (mismatch op left right)

/-- An operator on two strings. Order goes by a comparison that gives a number. -/
def reconcileStrings (op : Operator) (left right : Plan) : Except CompileFault Plan :=
  if op = .add then .ok (operator op left right .string)
  else if op.isEquality then .ok (operator op left right .boolean)
  else if op.isRelational then
    .ok (operator op (compareText left right) (const (.int .i32) (.int 0)) .boolean)
  else .error (mismatch op left right)

/-- An operator with the literal `null` on one side. -/
def reconcileNull (op : Operator) (left right : Plan) : Except CompileFault Plan :=
  if op.isEquality && left.ty.admitsNull && right.ty.admitsNull then
    .ok (operator op left right .boolean)
  else .error (mismatch op left right)

/-- The identifier or timestamp that a text has the shape of. -/
def sniffValue? (s : String) : Option Value :=
  if Guid.isShaped s then (Guid.read? s).map .guid
  else if DateTime.isShaped s then (DateTime.read? s).map .dateTime
  else none

/-- A constant text with the shape of an identifier or a timestamp, taken as one. -/
def sniff (plan : Plan) : Plan :=
  match plan.constant? with
  | some (.text s) =>
    match sniffValue? s with
    | some value => ofValue value
    | none => plan
  | _ => plan

/-- Takes a constant text opposite a dynamic operand by its shape. -/
def sniffDynamic (left right : Plan) : Plan × Plan :=
  if left.ty = .any ∧ right.ty = .string then (left, right.sniff)
  else if left.ty = .string ∧ right.ty = .any then (left.sniff, right)
  else (left, right)

/-- The type to which a text on the other side is converted. -/
def textTarget? (op : Operator) (ty : Ty) : Option Ty :=
  match ty.underlying with
  | .guid => if op.isEquality then some .guid else none
  | .dateTime => if op.isComparison then some .dateTime else none
  | _ => none

/-- A constant text read as an identifier or a timestamp; nothing if it does not have
the shape. -/
def readShaped? (s : String) (target : Ty) : Except CompileFault (Option Value) :=
  let invalid := CompileFault.argument
  match target with
  | .guid =>
    if Guid.isShaped s then
      match Guid.read? s with
      | some g => .ok (some (.guid g))
      | none => .error (invalid "Guid" (.notShaped s .guid))
    else .ok none
  | .dateTime =>
    if DateTime.isShaped s then
      match DateTime.read? s with
      | some t => .ok (some (.dateTime t))
      | none => .error (invalid "DateTime" (.notShaped s .dateTime))
    else .ok none
  | _ => .ok none

/-- A text as an identifier or a timestamp. A constant is read at once; `refusal` is
for a constant without the shape. -/
def textTo (plan : Plan) (target : Ty) (refusal : CompileFault) : Except CompileFault Plan :=
  match plan.constant? with
  | some (.text s) => do
    match ← readShaped? s target with
    | some value => return const target value
    | none => .error refusal
  | some .null => .ok (const target.orNull .null)
  | _ => .ok (plan.convert target)

/-- Converts a text opposite an identifier or a timestamp. -/
def coerceText (op : Operator) (left right : Plan) : Except CompileFault (Plan × Plan) :=
  let refusal := mismatch op left right
  let rightTarget? := if right.ty.isString then textTarget? op left.ty else none
  let leftTarget? := if left.ty.isString then textTarget? op right.ty else none
  match rightTarget?, leftTarget? with
  | some target, _ => do return (left, ← right.textTo target refusal)
  | none, some target => do return (← left.textTo target refusal, right)
  | none, none => .ok (left, right)

/-- The member of an enumeration that a constant stands for, or a conversion of an
integer to the enumeration. -/
def enumOperand (schema : Schema) (name : String) (plan : Plan) : Except CompileFault Plan :=
  let declared? := schema.enum? name
  let ofInteger (constant : Value) (n : Int) : Except CompileFault Plan :=
    match declared?.bind fun enum => enum.convert? constant with
    | some value => .ok (const (.enum name) value)
    | none =>
      if IntKind.fits .i64 n then .ok (const (.enum name) (.enum name none (Int64.ofInt n)))
      else .error (.argument name (.notInRange constant))
  match plan.constant? with
  | some (.text member) =>
    match declared?.bind fun enum => enum.convert? (.text member) with
    | some value => .ok (const (.enum name) value)
    | none => .error (.argument name (.notMember member name))
  | some (.int n) => ofInteger (.int n) n.toInt
  | some (.uint n) => ofInteger (.uint n) n.toNat
  | _ =>
    if plan.ty.intKind?.isSome then .ok (plan.convert ((Ty.enum name).nullableLike plan.ty))
    else .ok plan

/-- Converts the operand opposite an enumeration. -/
def coerceEnum (schema : Schema) (left right : Plan) : Except CompileFault (Plan × Plan) :=
  match left.ty.underlying, right.ty.underlying with
  | .enum a, .enum b =>
    if a = b then .ok (left, right) else do return (left, ← right.enumOperand schema a)
  | .enum name, _ => do return (left, ← right.enumOperand schema name)
  | _, .enum name => do return (← left.enumOperand schema name, right)
  | _, _ => .ok (left, right)

/-- What a constant becomes at a type, where that is known at once. -/
def folded? (plan : Plan) (ty : Ty) : Option Value :=
  match plan.constant?, ty.underlying with
  | some value, .int kind => value.integer?.bind fun n => Value.ofInt? n kind
  | some (.int n), .decimal => some (.decimal (.ofInt64 n))
  | some (.uint n), .decimal => some (.decimal (.ofUInt64 n))
  | some (.int n), .float => (Value.int n).float?.map .float
  | some (.uint n), .float => (Value.uint n).float?.map .float
  | some (.decimal d), .float => some (.float d.toFloat)
  | _, _ => none

/-- An operand at another type. Constants are converted at once where they can be. -/
def convertOperand (plan : Plan) (ty : Ty) : Plan :=
  match plan.folded? ty with
  | some value => const ty value
  | none => plan.convert ty

/-- The plan is a constant in the range of a kind. -/
def constantFits (plan : Plan) (kind : IntKind) : Bool :=
  match plan.constant?.bind Value.integer? with
  | some n => kind.fits n
  | none => false

/-- An operand converted to a type that is nullable like the operand. -/
def convertLike (plan : Plan) (ty : Ty) : Plan :=
  plan.convertOperand (ty.nullableLike plan.ty)

/-- An integer at a kind. -/
def widenTo (plan : Plan) (kind : IntKind) : Plan :=
  if plan.ty.intKind? = some kind then plan else plan.convertLike (.int kind)

/-- Brings two integers of different kinds to one. Without `widen` the right side
takes the kind of the left. With it nothing is narrowed: a constant takes the kind of
the other side if it fits, and otherwise both take a kind that holds both, if there
is one. -/
def coerceKinds (widen : Bool) (a b : IntKind) (left right : Plan) : Plan × Plan :=
  if a = b then (left, right)
  else if widen then
    if right.constantFits a then (left, right.convertLike (.int a))
    else if left.constantFits b then (left.convertLike (.int b), right)
    else
      match IntKind.common? a b with
      | some kind => (left.widenTo kind, right.widenTo kind)
      | none => (left, right)
  else if b.convertsTo a then (left, right.convertLike (.int a))
  else (left, right)

/-- Brings two numbers to one type: integers become decimals or floats opposite those,
and floats become decimals opposite decimals. -/
def coerceNumeric (widen : Bool) (left right : Plan) : Plan × Plan :=
  match left.ty.underlying, right.ty.underlying with
  | .int a, .int b => coerceKinds widen a b left right
  | .int _, .decimal => (left.convertLike .decimal, right)
  | .int _, .float => (left.convertLike .float, right)
  | .decimal, .int _ => (left, right.convertLike .decimal)
  | .float, .int _ => (left, right.convertLike .float)
  | .float, .decimal => (left.convertLike .decimal, right)
  | .decimal, .float => (left, right.convertLike .decimal)
  | _, _ => (left, right)

/-- Makes both operands nullable when one of them is and the types agree otherwise. -/
def alignNullability (left right : Plan) : Plan × Plan :=
  if left.ty.isNullable && !right.ty.isNullable && left.ty.underlying = right.ty then
    (left, right.convert left.ty)
  else if right.ty.isNullable && !left.ty.isNullable && right.ty.underlying = left.ty then
    (left.convert right.ty, right)
  else (left, right)

/-- An operator on operands of one type. Integers of any two kinds may be compared. -/
def direct (op : Operator) (left right : Plan) : Except CompileFault Plan :=
  if op.isComparison && left.ty.intKind?.isSome && right.ty.intKind?.isSome then
    .ok (operator op left right .boolean)
  else if left.ty ≠ right.ty then .error (mismatch op left right)
  else if op.isEquality || (op.isRelational && left.ty.isOrderable) then
    .ok (operator op left right .boolean)
  else if op.isArithmetic && left.ty.isNumeric then .ok (operator op left right left.ty)
  else .error (mismatch op left right)

/-- An operator on operands whose types are both known. -/
def reconcileStatic (schema : Schema) (op : Operator) (left right : Plan) :
    Except CompileFault Plan := do
  let (left, right) ← coerceText op left right
  let (left, right) ← coerceEnum schema left right
  let (left, right) := coerceNumeric op.isComparison left right
  let (left, right) := alignNullability left right
  direct op left right

/-- The plan of a binary operator. -/
def reconcile (schema : Schema) (op : Operator) (left right : Plan) : Except CompileFault Plan :=
  if op.isLogical then reconcileLogical op left right
  else
    let (left, right) := sniffDynamic left right
    if left.ty = .any ∨ right.ty = .any then
      .ok (operator op left right (if op.isComparison then .boolean else .any))
    else if left.ty.isString && right.ty.isString then reconcileStrings op left right
    else if left.ty = .null ∨ right.ty = .null then reconcileNull op left right
    else reconcileStatic schema op left right

/-- A branch of a conditional whose other branch is `null`. -/
def liftBranch (ty : Ty) (plan : Plan) : Plan :=
  match plan.constant? with
  | some .null => const ty .null
  | _ => plan.convert ty

/-- Brings the branches of a conditional to one type. Branches that still differ make
the conditional dynamic. -/
def unifyBranches (yes no : Plan) : Plan × Plan × Ty :=
  if yes.ty = no.ty then (yes, no, yes.ty)
  else if yes.ty = .any ∨ no.ty = .any then (yes, no, .any)
  else if yes.ty = .null then
    (yes.liftBranch no.ty.orNull, no.liftBranch no.ty.orNull, no.ty.orNull)
  else if no.ty = .null then
    (yes.liftBranch yes.ty.orNull, no.liftBranch yes.ty.orNull, yes.ty.orNull)
  else
    let (yes, no) := coerceNumeric true yes no
    let (yes, no) := alignNullability yes no
    (yes, no, if yes.ty = no.ty then yes.ty else .any)

end Plan

end TypedQuery
