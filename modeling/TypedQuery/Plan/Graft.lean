import TypedQuery.Compile.Session
import TypedQuery.Plan.Retype

/-!
# Grafting below a chain

A chain leads from a value down to the list that it was taken from: through member
accesses, reductions, conversions, bindings and the first arguments of calls. A
sequence method on a value that is no list is grafted at the nearest list of its
chain, and the chain is built again on top.
-/

namespace TypedQuery

/-- A type whose values have members. -/
def Ty.hasMembers (ty : Ty) : Bool :=
  match ty.underlying with
  | .object _ | .record _ | .any => true
  | _ => false

/-- A type whose values may be reduced. -/
def Ty.isReducible (ty : Ty) : Bool :=
  ty.isSequence || ty.underlying = .any

/-- A chain continues through the operand of the operation. -/
def UnaryOp.isLink : UnaryOp → Bool
  | .member _ | .reduce _ | .convert => true
  | .not | .inSet _ | .distinct => false

/-- The operation can stand above an operand of a type. -/
def UnaryOp.standsOn (op : UnaryOp) (operand : Ty) : Bool :=
  match op with
  | .reduce _ => operand.isReducible
  | .member _ => operand.hasMembers
  | _ => true

namespace Plan

/-- Applies a graft at the nearest list of a chain and builds the chain again. `method`
and `root` are for the failure when there is no list, or when the chain cannot stand
on what the graft made of it. -/
def graft (method : String) (root : Ty) (scion : Plan → Compile Node) (plan : Plan) :
    Compile Node :=
  if plan.ty.isSequence then scion plan
  else
    match plan with
    | unary ty op operand =>
      if op.isLink then do
        let node ← graft method root scion operand
        if op.standsOn node.ty then return node.map fun plan => (unary ty op plan).retype
        else Halting.fail (.noSequence method root)
      else Halting.fail (.noSequence method root)
    | bind ty .given source name body => do
      let node ← graft method root scion source
      if node.ty.hasMembers then
        return node.map fun plan =>
          (bind ty .given plan name (body.rebind name plan.ty.underlying)).retype
      else Halting.fail (.noSequence method root)
    | call ty name service? run (first :: rest) => do
      let node ← graft method root scion first
      return node.map fun plan => call ty name service? run (plan :: rest)
    | _ => Halting.fail (.noSequence method root)

end Plan

/-- Applies a sequence method to the nearest list of a node's chain. -/
def Node.graft (node : Node) (method : String) (scion : Node → Compile Node) : Compile Node :=
  node.plan.graft method node.ty fun plan => scion { node with plan }

end TypedQuery
