import TypedQuery.Plan.Basic

/-!
# Types that follow from operands

Many nodes have a type that their operands determine. When an operand is replaced,
the types of the nodes above it are determined anew.
-/

namespace TypedQuery

/-- The type of a member of a value of a type, where the type tells. -/
def Ty.member? (object : Ty) (name : String) : Option Ty :=
  match object.underlying with
  | .record fields => Signature.type? fields name
  | .any => some .any
  | _ => none

/-- The type of an operation, where its operand determines it. -/
def UnaryOp.ty? (op : UnaryOp) (operand : Ty) : Option Ty :=
  match op with
  | .member name => operand.member? name
  | .distinct => some operand
  | .reduce reduction => some (Plan.reducedTy operand reduction)
  | .not | .convert | .inSet _ => none

/-- The type of an operation, where its left operand determines it. -/
def BinaryOp.ty? (op : BinaryOp) (left : Ty) : Option Ty :=
  match op with
  | .take | .skip => some left
  | .operator _ | .compareText | .textTest _ => none

/-- The type of an operation that binds a parameter. -/
def Binder.ty (binder : Binder) (source body : Ty) : Ty :=
  match binder with
  | .filter | .orderBy _ => source
  | .project => .list body
  | .given => body.orNull

namespace Plan

/-- The node with the type that its operands determine. Other nodes keep their
type. -/
def retype : Plan → Plan
  | unary ty op operand => unary ((op.ty? operand.ty).getD ty) op operand
  | binary ty op left right => binary ((op.ty? left.ty).getD ty) op left right
  | bind _ binder source name body => bind (binder.ty source.ty body.ty) binder source name body
  | plan => plan

mutual

/-- Gives all references to a parameter a type, and determines the types of the nodes
above them anew. -/
def rebind (parameter : String) (ty : Ty) : Plan → Plan
  | const constTy value => const constTy value
  | param paramTy name => param (if name = parameter then ty else paramTy) name
  | unary nodeTy op operand => (unary nodeTy op (rebind parameter ty operand)).retype
  | binary nodeTy op left right =>
    (binary nodeTy op (rebind parameter ty left) (rebind parameter ty right)).retype
  | cond nodeTy test yes no =>
    cond nodeTy (rebind parameter ty test) (rebind parameter ty yes) (rebind parameter ty no)
  | bind nodeTy binder source name body =>
    (bind nodeTy binder (rebind parameter ty source) name (rebind parameter ty body)).retype
  | record nodeTy fields values => record nodeTy fields (rebindAll parameter ty values)
  | call nodeTy name service? run arguments =>
    call nodeTy name service? run (rebindAll parameter ty arguments)

/-- The same for a list of plans. -/
def rebindAll (parameter : String) (ty : Ty) : List Plan → List Plan
  | [] => []
  | plan :: rest => rebind parameter ty plan :: rebindAll parameter ty rest

end

end Plan

end TypedQuery
