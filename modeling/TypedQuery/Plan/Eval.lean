import TypedQuery.Plan.Basic
import TypedQuery.Text.Part
import TypedQuery.Value.Arithmetic
import TypedQuery.Value.Convert
import TypedQuery.Value.Order

/-!
# Running plans

The value of a plan in an environment of named values. `null` passes through member
accesses, lists and arithmetic; it counts as false in conditions and under the
logical connectives, and it has no order.
-/

namespace TypedQuery

/-- Named values, the innermost first. -/
abbrev Environment := List (String × Value)

/-- The registered services by name. -/
abbrev Services := Entries Value

namespace Value

/-- The truth of a value in a logical connective. -/
def truth : Value → Except RunFault Bool
  | boolean b => .ok b
  | null => .ok false
  | value => .error (.type (.notBoolean value.kind))

/-- The items of a list, or nothing for `null`. -/
def sequence : Value → Except RunFault (Option (List Value))
  | list items => .ok (some items)
  | null => .ok none
  | value => .error (.type (.notList value.kind))

/-- A member of a value. Objects give `null` for members that they do not have. -/
def readMember (name : String) : Value → Except RunFault Value
  | null => .ok null
  | object _ members => .ok ((Entries.find? members name).getD null)
  | record fields values =>
    match fieldOf? fields values name with
    | some value => .ok value
    | none => .error (.type (.noField name))
  | value => .error (.type (.noMembers name value.kind))

/-- The items that are not equal to an earlier one. -/
def distinctItems (items : List Value) : List Value :=
  items.foldl (fun kept item => if kept.any (same · item) then kept else kept ++ [item]) []

/-- Puts an item into a list whose last item comes first, before the items that it
does not precede. -/
def insertKeyed (precedes : Value → Value → Bool) (item : Value × Value) :
    List (Value × Value) → List (Value × Value)
  | [] => [item]
  | last :: rest =>
    if precedes item.1 last.1 then last :: insertKeyed precedes item rest
    else item :: last :: rest

/-- One key comes before another in the given direction. -/
def precedes (descending : Bool) (a b : Value) : Bool :=
  compare a b = some (if descending then .gt else .lt)

/-- The items of a list of keys and items in the order of the keys. Items with equal
keys keep their order. -/
def sortKeyed (descending : Bool) (keyed : List (Value × Value)) : List Value :=
  (keyed.foldl (fun sorted item => insertKeyed (precedes descending) item sorted) []).reverse.map
    Prod.snd

end Value

/-- A list reduced to an item or to its length. -/
def Reduction.apply (reduction : Reduction) (items : List Value) : Value :=
  match reduction with
  | .first => items.head?.getD .null
  | .last => items.getLast?.getD .null
  | .count => .int (Int64.ofNat items.length)

/-- The outcome of a test of two texts. -/
def TextTest.holds (test : TextTest) (target argument : String) : Bool :=
  match test with
  | .startsWith => argument.toList.isPrefixOf target.toList
  | .endsWith => argument.toList.isSuffixOf target.toList
  | .contains => Text.occursIn argument.toList target.toList
  | .lacks => !Text.occursIn argument.toList target.toList

/-- A test of two values. With `null` only `lacks` holds. -/
def TextTest.apply (test : TextTest) (target argument : Value) : Except RunFault Value :=
  match target, argument with
  | .text s, .text t => .ok (.boolean (test.holds s t))
  | .null, _ => .ok (.boolean (test = .lacks))
  | _, .null => .ok (.boolean (test = .lacks))
  | _, _ => .error (.type (.textTest target.kind argument.kind))

/-- Applies an operation at a node of a type to the value of its operand. -/
def UnaryOp.apply (ty : Ty) (op : UnaryOp) (operand : Value) : Except RunFault Value :=
  match op with
  | .member name => operand.readMember name
  | .not =>
    match operand with
    | .boolean b => .ok (.boolean !b)
    | .null => .ok .null
    | value => .error (.type (.negation value.kind))
  | .convert => operand.convert ty
  | .inSet set => .ok (.boolean (set.any (Value.same · operand)))
  | .distinct => do
    match ← operand.sequence with
    | some items => return .list (Value.distinctItems items)
    | none => return .null
  | .reduce reduction => do
    match ← operand.sequence with
    | some items => return reduction.apply items
    | none => return .null

/-- Applies an operator that is no logical connective. -/
def Operator.apply (ty : Ty) (op : Operator) (left right : Value) : Except RunFault Value :=
  if op.isEquality then .ok (.boolean (Value.same left right == (op = .equal)))
  else if op.isRelational then
    if left.isNull || right.isNull then .ok (.boolean false)
    else
      match Value.compare left right with
      | some order => .ok (.boolean (op.holds order))
      | none => .error (.type (.incomparable op left.kind right.kind))
  else Value.arithmetic op left right ty

/-- The number of items that a count asks for. -/
def countOf (length : Nat) (count : Value) : Except RunFault Nat :=
  match count.integer? with
  | some n => .ok (max 0 (min n length)).toNat
  | none => .error (.type (.notCount count.kind))

/-- What an operation gives when its left operand alone decides. Its right operand
is then not run. -/
def BinaryOp.decided? (op : BinaryOp) (left : Value) : Except RunFault (Option Value) :=
  match op with
  | .operator .and => do
    return if ← left.truth then none else some (.boolean false)
  | .operator .or => do
    return if ← left.truth then some (.boolean true) else none
  | .take | .skip => do
    match ← left.sequence with
    | some _ => return none
    | none => return some .null
  | _ => .ok none

/-- Applies an operation at a node of a type to the values of both operands. -/
def BinaryOp.apply (ty : Ty) (op : BinaryOp) (left right : Value) : Except RunFault Value :=
  match op with
  | .operator .and | .operator .or => do
    return .boolean (← right.truth)
  | .operator op => op.apply ty left right
  | .compareText =>
    match Value.compare left right with
    | some .lt => .ok (.int (-1))
    | some .eq => .ok (.int 0)
    | some .gt => .ok (.int 1)
    | none => .error (.type (.textOrder left.kind right.kind))
  | .textTest test => test.apply left right
  | .take => do
    let items := (← left.sequence).getD []
    return .list (items.take (← countOf items.length right))
  | .skip => do
    let items := (← left.sequence).getD []
    return .list (items.drop (← countOf items.length right))

/-- Applies an operation that binds a parameter. `body` gives the value of the body
for a value of the parameter. -/
def Binder.apply (binder : Binder) (source : Value) (body : Value → Except RunFault Value) :
    Except RunFault Value :=
  match binder with
  | .given => if source.isNull then .ok .null else body source
  | .filter => do
    match ← source.sequence with
    | some items =>
      return .list (← items.filterM fun item => do return Value.same (← body item) (.boolean true))
    | none => return .null
  | .project => do
    match ← source.sequence with
    | some items => return .list (← items.mapM body)
    | none => return .null
  | .orderBy descending => do
    match ← source.sequence with
    | some items =>
      let keyed ← items.mapM fun item => do return (← body item, item)
      return .list (Value.sortKeyed descending keyed)
    | none => return .null

/-- The branch that the value of a test chooses. -/
def chooses (test : Value) : Except RunFault Bool :=
  match test with
  | .boolean b => .ok b
  | .null => .ok false
  | value => .error (.type (.condition value.kind))

/-- The service that a call needs, if it needs one. -/
def Services.resolve? (services : Services) (service? : Option String) :
    Except RunFault (Option Value) :=
  match service? with
  | none => .ok none
  | some service =>
    match Entries.find? services service with
    | some value => .ok (some value)
    | none => .error (.missingService service)

namespace Plan

mutual

/-- The value of a plan. -/
def eval (services : Services) (environment : Environment) : Plan → Except RunFault Value
  | const _ value => .ok value
  | param _ name =>
    match environment.lookup name with
    | some value => .ok value
    | none => .error (.unbound name)
  | unary ty op operand => do op.apply ty (← eval services environment operand)
  | binary ty op left right => do
    let first ← eval services environment left
    match ← op.decided? first with
    | some result => return result
    | none => op.apply ty first (← eval services environment right)
  | cond _ test yes no => do
    if ← chooses (← eval services environment test) then eval services environment yes
    else eval services environment no
  | bind _ binder source name body => do
    let value ← eval services environment source
    binder.apply value fun item => eval services ((name, item) :: environment) body
  | record _ fields values => do
    return .newRecord fields (← evalAll services environment values)
  | call _ _ service? run arguments => do
    let service ← services.resolve? service?
    let values ← evalAll services environment arguments
    (run service values).mapError .host

/-- The values of plans from the first to the last. -/
def evalAll (services : Services) (environment : Environment) :
    List Plan → Except RunFault (List Value)
  | [] => .ok []
  | plan :: rest => do
    let value ← eval services environment plan
    let values ← evalAll services environment rest
    return value :: values

end

end Plan

end TypedQuery
