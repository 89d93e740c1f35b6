import TypedQuery.Plan.Graft
import TypedQuery.Proofs.Computation
import TypedQuery.Proofs.Plan.Adapting

/-!
# Vetted plans

The static checks of operators, conditionals and methods leave their mark on plans: every operation
stands on operands of types that the checks let pass, and no function of the host is called. What
reconciling makes of vetted plans is vetted, and so is a chain that is built again on a vetted
graft.
-/

namespace TypedQuery

/-- The checks let an operand of the type pass. -/
def UnaryOp.Takes (op : UnaryOp) (operand : Ty) : Prop :=
  match op with
  | .not => operand = .boolean
  | .distinct => operand.isSequence = true
  | .reduce _ => operand.isReducible = true
  | .member _ | .convert | .inSet _ => True

/-- The checks let operands of the two types pass. -/
def BinaryOp.Takes (op : BinaryOp) (left right : Ty) : Prop :=
  match op with
  | .operator op => (op.isLogical = true → left = .boolean ∧ right = .boolean) ∧
      (op.isRelational = true → left.Compares right)
  | .compareText => left.isString = true ∧ right.isString = true
  | .textTest _ => (left.isString = true ∨ left = .any) ∧ (right.isString = true ∨ right = .any)
  | .take | .skip => left.isSequence = true ∧ right.intKind?.isSome = true

namespace Plan

mutual

/-- The nodes of a plan, each before those below it. -/
def nodes : Plan → List Plan
  | const ty value => [const ty value]
  | param ty name => [param ty name]
  | unary ty op operand => unary ty op operand :: nodes operand
  | binary ty op left right => binary ty op left right :: (nodes left ++ nodes right)
  | cond ty test yes no => cond ty test yes no :: (nodes test ++ (nodes yes ++ nodes no))
  | bind ty binder source name body =>
    bind ty binder source name body :: (nodes source ++ nodes body)
  | record ty fields values => record ty fields values :: nodesAll values
  | call ty name service? run arguments =>
    call ty name service? run arguments :: nodesAll arguments

/-- The nodes of a list of plans. -/
def nodesAll : List Plan → List Plan
  | [] => []
  | plan :: rest => nodes plan ++ nodesAll rest

end

/-- A property holds of every node of a plan. -/
def Every (P : Plan → Prop) (plan : Plan) : Prop :=
  ∀ node ∈ plan.nodes, P node

instance {P : Plan → Prop} [DecidablePred P] (plan : Plan) : Decidable (plan.Every P) :=
  inferInstanceAs (Decidable (∀ node ∈ plan.nodes, P node))

variable {P : Plan → Prop} {schema : Schema} {op : Operator} {ty : Ty}
variable {plan other operand left right l r result test yes no source body : Plan}

/-- What holds of every node of a plan holds of the plan. -/
theorem Every.here (h : plan.Every P) : P plan := by
  cases plan <;> exact h _ List.mem_cons_self

/-- The nodes of a unary operator are itself and those of the operand. -/
theorem every_unary {op : UnaryOp} :
    (unary ty op operand).Every P ↔ P (unary ty op operand) ∧ operand.Every P := by
  simp only [Every, nodes, List.forall_mem_cons]

/-- The nodes of a binary operator are itself and those of the operands. -/
theorem every_binary {op : BinaryOp} :
    (binary ty op left right).Every P ↔
      P (binary ty op left right) ∧ left.Every P ∧ right.Every P := by
  simp only [Every, nodes, List.forall_mem_cons, List.forall_mem_append]

/-- The nodes of a conditional are itself and those of its parts. -/
theorem every_cond :
    (cond ty test yes no).Every P ↔
      P (cond ty test yes no) ∧ test.Every P ∧ yes.Every P ∧ no.Every P := by
  simp only [Every, nodes, List.forall_mem_cons, List.forall_mem_append]

/-- The nodes of a binder are itself and those of the source and of the body. -/
theorem every_bind {binder : Binder} {name : String} :
    (bind ty binder source name body).Every P ↔
      P (bind ty binder source name body) ∧ source.Every P ∧ body.Every P := by
  simp only [Every, nodes, List.forall_mem_cons, List.forall_mem_append]

/-- What holds of the nodes of several plans holds of those of each. -/
theorem every_of_mem_nodesAll {plans : List Plan} (h : ∀ node ∈ nodesAll plans, P node)
    (hplan : plan ∈ plans) : plan.Every P := by
  induction plans with
  | nil => cases hplan
  | cons first rest ih =>
    unfold nodesAll at h
    rw [List.forall_mem_append] at h
    rcases List.mem_cons.mp hplan with rfl | hrest
    · exact h.1
    · exact ih h.2 hrest

/-- The operands of a node have types that the checks let pass. -/
def StandsWell : Plan → Prop
  | unary _ op operand => op.Takes operand.ty
  | binary _ op left right => op.Takes left.ty right.ty
  | cond _ test _ _ => test.ty = .boolean
  | bind _ binder _ _ _ => binder ≠ .given
  | call _ _ _ _ _ => False
  | const _ _ | param _ _ | record _ _ _ => True

/-- The operands of all nodes have types that the checks let pass. -/
def Vetted (plan : Plan) : Prop :=
  plan.Every StandsWell

namespace Vetted

/-- Constants are vetted. -/
theorem const (ty : Ty) (value : Value) : (Plan.const ty value).Vetted := by
  intro node hnode
  cases List.mem_singleton.mp hnode
  trivial

/-- Parameters are vetted. -/
theorem param (ty : Ty) (name : String) : (Plan.param ty name).Vetted := by
  intro node hnode
  cases List.mem_singleton.mp hnode
  trivial

/-- A unary operator on a vetted operand is vetted if the checks let it pass. -/
theorem unary {op : UnaryOp} (h : operand.Vetted) (htakes : op.Takes operand.ty) :
    (Plan.unary ty op operand).Vetted :=
  every_unary.mpr ⟨htakes, h⟩

/-- A binary operator on vetted operands is vetted if the checks let them pass. -/
theorem binary {op : BinaryOp} (hleft : left.Vetted) (hright : right.Vetted)
    (htakes : op.Takes left.ty right.ty) : (Plan.binary ty op left right).Vetted :=
  every_binary.mpr ⟨htakes, hleft, hright⟩

/-- A binder other than that of a given value is vetted if its source and its body are. -/
theorem bind {binder : Binder} {name : String} (hsource : source.Vetted) (hbody : body.Vetted)
    (hbinder : binder ≠ .given) : (Plan.bind ty binder source name body).Vetted :=
  every_bind.mpr ⟨hbinder, hsource, hbody⟩

/-- What becomes of a vetted operand is vetted. -/
theorem adapted (h : plan.Vetted) (hadapts : Adapts plan other) : other.Vetted := by
  induction hadapts with
  | refl => exact h
  | const _ _ => exact .const _ _
  | convert ty _ ih => exact ih.unary trivial

/-- A condition is a vetted truth value. -/
theorem asPredicate? (h : plan.Vetted) (hresult : plan.asPredicate? = some result) :
    result.Vetted ∧ result.ty = .boolean := by
  rcases eq_of_asPredicate? hresult with ⟨hty, rfl⟩ | ⟨-, ty, -, rfl⟩
  · exact ⟨h, hty⟩
  · exact ⟨h.binary (.const _ _) ⟨nofun, nofun⟩, rfl⟩

/-- The operator that two vetted plans are reconciled to is vetted. -/
theorem reconcile (hleft : left.Vetted) (hright : right.Vetted)
    (hok : Plan.reconcile schema op left right = .ok result) : result.Vetted := by
  obtain ⟨l, r, ty, hoperands, rfl⟩ := reconcile_operands hok
  cases hoperands with
  | conditions hl hr =>
    obtain ⟨hlvetted, hlty⟩ := hleft.asPredicate? hl
    obtain ⟨hrvetted, hrty⟩ := hright.asPredicate? hr
    refine hlvetted.binary hrvetted ⟨fun _ => ⟨hlty, hrty⟩, fun _ => ?_⟩
    rw [hlty, hrty]
    exact .inr (.inr (.inr ⟨rfl, rfl⟩))
  | @texts l r hadapt hop hl hr =>
    have hcompare : (compareText l r).Vetted :=
      (hleft.adapted hadapt.left).binary (hright.adapted hadapt.right) ⟨hl, hr⟩
    refine hcompare.binary (.const _ _) ⟨?_, fun _ => .inr (.inr (.inl ⟨rfl, rfl⟩))⟩
    rw [hop]
    exact nofun
  | adapted hadapt hop hcompares =>
    refine (hleft.adapted hadapt.left).binary (hright.adapted hadapt.right) ⟨?_, hcompares⟩
    rw [hop]
    exact nofun

end Vetted

end Plan

/-- The plan of a node is vetted, and the node needs no services. -/
structure Node.Vetted (node : Node) : Prop where
  plan : node.plan.Vetted
  services : node.services = []

/-- A vetted plan with what two vetted nodes capture is vetted. -/
theorem Node.Vetted.join {a b : Node} {plan : Plan} (ha : a.Vetted) (hb : b.Vetted)
    (hplan : plan.Vetted) : (a.join b plan).Vetted := by
  refine ⟨hplan, ?_⟩
  unfold Node.join
  rw [ha.services, hb.services]
  rfl

/-- A link of a chain that was vetted, on a vetted operand on which it can stand. -/
theorem Plan.Vetted.link {ty : Ty} {op : UnaryOp} {operand : Plan} (h : operand.Vetted)
    (hlink : op.isLink = true) (hstands : op.standsOn operand.ty = true) :
    (Plan.unary ty op operand).retype.Vetted := by
  have htakes : op.Takes operand.ty := by
    cases op with
    | member _ | convert => trivial
    | reduce _ => exact hstands
    | not | inSet _ | distinct => cases hlink
  exact h.unary htakes

/-- A graft on a vetted plan gives a vetted node if the scion does so on lists. -/
theorem Plan.graft_vetted {method : String} {root : Ty} {scion : Plan → Compile Node}
    (hscion : ∀ list : Plan, list.ty.isSequence = true → list.Vetted →
      Halting.Ensures (scion list) Node.Vetted) :
    (plan : Plan) → plan.Vetted →
      Halting.Ensures (plan.graft method root scion) Node.Vetted := by
  intro plan hplan
  unfold graft
  by_cases hsequence : plan.ty.isSequence = true
  · rw [if_pos hsequence]
    exact hscion plan hsequence hplan
  · rw [if_neg hsequence]
    cases plan with
    | unary ty op operand =>
      dsimp only
      split
      · rename_i hlink
        refine .bind (graft_vetted hscion operand (every_unary.mp hplan).2) fun node hnode => ?_
        split
        · rename_i hstands
          exact .pure ⟨hnode.plan.link hlink hstands, hnode.services⟩
        · exact .fail _
      · exact .fail _
    | bind ty binder source name body =>
      have hbinder : binder ≠ .given := (every_bind.mp hplan).1
      cases binder with
      | given => exact absurd rfl hbinder
      | filter | project | orderBy _ => exact .fail _
    | call ty name service? run arguments => exact absurd hplan.here id
    | const _ _ | param _ _ | binary _ _ _ _ | cond _ _ _ _ | record _ _ _ => exact .fail _

end TypedQuery
