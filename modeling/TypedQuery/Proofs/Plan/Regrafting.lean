import TypedQuery.Plan.Graft
import TypedQuery.Proofs.Computation
import TypedQuery.Proofs.Plan.Typing

/-!
# Chains above a list of another type

A graft may give a list of another type, or no list at all. The nodes of the chain above it get
their types anew, and so does the body of a binding, whose parameter has another type now. What is
not looked at again is whether a record still has the fields that are accessed, and the parameters
that are bound within such a body.
-/

namespace TypedQuery

/-- The type of an operation is the one that its operand determines. -/
def UnaryOp.Determines (op : UnaryOp) (operand ty : Ty) : Prop :=
  match op with
  | .member name => ∀ fields fieldTy, operand.underlying = .record fields →
      Signature.type? fields name = some fieldTy → ty = fieldTy
  | .distinct => ty = operand
  | .reduce reduction => ty = Plan.reducedTy operand reduction
  | .not | .convert | .inSet _ => True

/-- A member access on a record names one of its fields. -/
def UnaryOp.NamesField (op : UnaryOp) (operand : Ty) : Prop :=
  match op with
  | .member name => ∀ fields, operand.underlying = .record fields →
      ∃ fieldTy, Signature.type? fields name = some fieldTy
  | _ => True

/-- The type of an operation is the one that its left operand determines. -/
def BinaryOp.Determines (op : BinaryOp) (left ty : Ty) : Prop :=
  match op with
  | .take | .skip => ty = left
  | .operator _ | .compareText | .textTest _ => True

/-- The type of the parameter that is bound: of the items of a list, or of the value that is
given. -/
def Binder.item? (binder : Binder) (source : Ty) : Option Ty :=
  match binder with
  | .filter | .project | .orderBy _ => source.element?
  | .given => some source.underlying

namespace Typing

/-- Any parameter at any type. -/
def free : Typing := fun _ _ => True

/-- The parameters inside of a binder whose parameter may have a type. -/
def within (Γ : Typing) (name : String) (item? : Option Ty) : Typing := fun other ty =>
  if other = name then item? = some ty else Γ other ty

/-- Inside of a binder its parameter may have the type that is bound. -/
theorem within_self {Γ : Typing} {name : String} {item? : Option Ty} {ty : Ty} :
    Γ.within name item? name ty ↔ item? = some ty := by
  unfold within
  rw [if_pos rfl]

/-- Inside of a binder the other parameters may have the types that they have outside. -/
theorem within_of_ne {Γ : Typing} {name other : String} {item? : Option Ty} {ty : Ty}
    (hne : other ≠ name) : Γ.within name item? other ty ↔ Γ other ty := by
  unfold within
  rw [if_neg hne]

/-- More types of parameters outside of a binder are more inside of it. -/
theorem within_mono {Γ Δ : Typing} (h : ∀ name ty, Γ name ty → Δ name ty) (name : String)
    (item? : Option Ty) :
    ∀ other ty, Γ.within name item? other ty → Δ.within name item? other ty := by
  intro other ty hty
  by_cases hname : other = name
  · subst hname
    exact within_self.mpr (within_self.mp hty)
  · exact (within_of_ne hname).mpr (h other ty ((within_of_ne hname).mp hty))

/-- When a parameter gets another type, every parameter may have its type after the change:
because it is one that may have it anyway, because it is the parameter itself, or because it could
have it before. -/
def Carries (parameter : String) (ty : Ty) (anyway before after : Typing) : Prop :=
  ∀ other, (∀ otherTy, anyway other otherTy → after other otherTy) ∨
    other = parameter ∧ after parameter ty ∨
    other ≠ parameter ∧ ∀ otherTy, before other otherTy → after other otherTy

/-- What a change of a parameter carries over, it carries over inside of a binder. -/
theorem Carries.within {parameter name : String} {ty : Ty} {anyway before after : Typing}
    (h : Carries parameter ty anyway before after) (item? item?' : Option Ty) :
    Carries parameter ty (anyway.within name item?') (before.within name item?)
      (after.within name item?') := by
  intro other
  by_cases hname : other = name
  · subst hname
    exact Or.inl fun otherTy hty => within_self.mpr (within_self.mp hty)
  · simp only [within_of_ne hname]
    rcases h other with h | ⟨rfl, h⟩ | h
    · exact Or.inl h
    · exact Or.inr (Or.inl ⟨rfl, (within_of_ne hname).mpr h⟩)
    · exact Or.inr (Or.inr h)

end Typing

namespace Plan

mutual

/-- Every node has a property. -/
def Everywhere (p : Plan → Prop) : Plan → Prop
  | const ty value => p (const ty value)
  | param ty name => p (param ty name)
  | unary ty op operand => p (unary ty op operand) ∧ Everywhere p operand
  | binary ty op left right =>
    p (binary ty op left right) ∧ Everywhere p left ∧ Everywhere p right
  | cond ty test yes no =>
    p (cond ty test yes no) ∧ Everywhere p test ∧ Everywhere p yes ∧ Everywhere p no
  | bind ty binder source name body =>
    p (bind ty binder source name body) ∧ Everywhere p source ∧ Everywhere p body
  | record ty fields values => p (record ty fields values) ∧ EverywhereAll p values
  | call ty name service? run arguments =>
    p (call ty name service? run arguments) ∧ EverywhereAll p arguments

/-- The same for a list of plans. -/
def EverywhereAll (p : Plan → Prop) : List Plan → Prop
  | [] => True
  | plan :: rest => Everywhere p plan ∧ EverywhereAll p rest

end

mutual

/-- Every reference to a parameter has a type that it may have there. -/
def Refers (Γ : Typing) : Plan → Prop
  | const _ _ => True
  | param ty name => Γ name ty
  | unary _ _ operand => Refers Γ operand
  | binary _ _ left right => Refers Γ left ∧ Refers Γ right
  | cond _ test yes no => Refers Γ test ∧ Refers Γ yes ∧ Refers Γ no
  | bind _ binder source name body =>
    Refers Γ source ∧ Refers (Γ.within name (binder.item? source.ty)) body
  | record _ _ values => RefersAll Γ values
  | call _ _ _ _ arguments => RefersAll Γ arguments

/-- The same for a list of plans. -/
def RefersAll (Γ : Typing) : List Plan → Prop
  | [] => True
  | plan :: rest => Refers Γ plan ∧ RefersAll Γ rest

end

/-- A node has the type that its operands determine. -/
def Determines : Plan → Prop
  | unary ty op operand => op.Determines operand.ty ty
  | binary ty op left _ => op.Determines left.ty ty
  | bind ty binder source _ body => ty = binder.ty source.ty body.ty
  | _ => True

/-- If a node accesses a record, then it names a field. -/
def NamesField : Plan → Prop
  | unary _ op operand => op.NamesField operand.ty
  | _ => True

/-- Nodes have the types that their operands determine, accesses to records name fields, and
references to parameters have the types of what is bound to them. -/
structure WellTyped (Γ : Typing) (plan : Plan) : Prop where
  determined : plan.Everywhere Determines
  named : plan.Everywhere NamesField
  refers : plan.Refers Γ

/-- What a chain above another list may lack: accesses to records name fields, in the chain and
in the bodies of its bindings, and in these bodies references to parameters that are bound there
have the types of what is bound to them. -/
def ChainFits : Plan → Prop
  | unary _ op operand => op.isLink = true → op.NamesField operand.ty ∧ ChainFits operand
  | bind _ .given source _ body => ChainFits source ∧ body.Everywhere NamesField ∧ body.Refers .free
  | call _ _ _ _ (first :: _) => ChainFits first
  | _ => True

variable {Γ Δ : Typing} {plan : Plan}

/-- A plan whose type is computed anew has the type that its operands determine. -/
theorem determines_retype (plan : Plan) : plan.retype.Determines := by
  cases plan with
  | unary ty op operand =>
    cases op with
    | member name =>
      intro fields fieldTy hfields hfield
      change ((operand.ty.member? name).getD ty) = fieldTy
      unfold Ty.member?
      rw [hfields]
      change (Signature.type? fields name).getD ty = fieldTy
      rw [hfield]
      rfl
    | distinct | reduce _ => exact rfl
    | not | convert | inSet _ => trivial
  | binary ty op left right =>
    cases op with
    | take | skip => exact rfl
    | operator _ | compareText | textTest _ => trivial
  | bind ty binder source name body => exact rfl
  | const _ _ | param _ _ | cond _ _ _ _ | record _ _ _ | call _ _ _ _ _ => trivial

mutual

/-- Once a parameter has another type, every node has the type that its operands determine. -/
theorem determined_rebind (parameter : String) (ty : Ty) :
    (plan : Plan) → (plan.rebind parameter ty).Everywhere Determines
  | const _ _ => trivial
  | param _ _ => trivial
  | unary nodeTy op operand => ⟨determines_retype (unary nodeTy op _),
      determined_rebind parameter ty operand⟩
  | binary nodeTy op left right => ⟨determines_retype (binary nodeTy op _ _),
      determined_rebind parameter ty left, determined_rebind parameter ty right⟩
  | cond _ test yes no => ⟨trivial, determined_rebind parameter ty test,
      determined_rebind parameter ty yes, determined_rebind parameter ty no⟩
  | bind nodeTy binder source name body => ⟨determines_retype (bind nodeTy binder _ name _),
      determined_rebind parameter ty source, determined_rebind parameter ty body⟩
  | record _ _ values => ⟨trivial, determined_rebindAll parameter ty values⟩
  | call _ _ _ _ arguments => ⟨trivial, determined_rebindAll parameter ty arguments⟩

/-- Plans in which a parameter is bound anew have the types that their operands determine. -/
theorem determined_rebindAll (parameter : String) (ty : Ty) :
    (plans : List Plan) → EverywhereAll Determines (rebindAll parameter ty plans)
  | [] => trivial
  | plan :: rest => ⟨determined_rebind parameter ty plan, determined_rebindAll parameter ty rest⟩

end

mutual

/-- More parameters, or parameters at more types, do no harm. -/
theorem Refers.mono {Γ Δ : Typing} (hΓ : ∀ name ty, Γ name ty → Δ name ty) :
    (plan : Plan) → plan.Refers Γ → plan.Refers Δ
  | const _ _, _ => trivial
  | param ty name, h => hΓ name ty h
  | unary _ _ operand, h => Refers.mono hΓ operand h
  | binary _ _ left right, h => ⟨Refers.mono hΓ left h.1, Refers.mono hΓ right h.2⟩
  | cond _ test yes no, h =>
    ⟨Refers.mono hΓ test h.1, Refers.mono hΓ yes h.2.1, Refers.mono hΓ no h.2.2⟩
  | bind _ _ source _ body, h =>
    ⟨Refers.mono hΓ source h.1, Refers.mono (Typing.within_mono hΓ _ _) body h.2⟩
  | record _ _ values, h => RefersAll.mono hΓ values h
  | call _ _ _ _ arguments, h => RefersAll.mono hΓ arguments h

/-- References stay allowed when parameters may have more types. -/
theorem RefersAll.mono {Γ Δ : Typing} (hΓ : ∀ name ty, Γ name ty → Δ name ty) :
    (plans : List Plan) → RefersAll Γ plans → RefersAll Δ plans
  | [], _ => trivial
  | plan :: rest, h => ⟨Refers.mono hΓ plan h.1, RefersAll.mono hΓ rest h.2⟩

end

mutual

/-- Once a parameter has another type, the references to it and to the parameters outside fit.
The references to parameters that are bound inside are left to be seen. -/
theorem Refers.rebind {parameter : String} {ty : Ty} {anyway before after : Typing}
    (hcarries : Typing.Carries parameter ty anyway before after) :
    (plan : Plan) → plan.Refers before → (plan.rebind parameter ty).Refers anyway →
      (plan.rebind parameter ty).Refers after
  | const _ _, _, _ => trivial
  | param paramTy name, hbefore, hanyway => by
    change anyway name _ at hanyway
    change after name _
    rcases hcarries name with h | ⟨rfl, h⟩ | ⟨hne, h⟩
    · exact h _ hanyway
    · rwa [if_pos rfl]
    · rw [if_neg hne]
      exact h paramTy hbefore
  | unary _ _ operand, hbefore, hanyway =>
    Refers.rebind hcarries operand hbefore hanyway
  | binary nodeTy op left right, hbefore, hanyway =>
    ⟨Refers.rebind hcarries left hbefore.1 hanyway.1,
      Refers.rebind hcarries right hbefore.2 hanyway.2⟩
  | cond _ test yes no, hbefore, hanyway =>
    ⟨Refers.rebind hcarries test hbefore.1 hanyway.1,
      Refers.rebind hcarries yes hbefore.2.1 hanyway.2.1,
      Refers.rebind hcarries no hbefore.2.2 hanyway.2.2⟩
  | bind nodeTy binder source name body, hbefore, hanyway =>
    ⟨Refers.rebind hcarries source hbefore.1 hanyway.1,
      Refers.rebind (hcarries.within _ _) body hbefore.2 hanyway.2⟩
  | record _ _ values, hbefore, hanyway =>
    RefersAll.rebind hcarries values hbefore hanyway
  | call _ _ _ _ arguments, hbefore, hanyway =>
    RefersAll.rebind hcarries arguments hbefore hanyway

/-- References are allowed after a parameter is bound anew if the change carries them over. -/
theorem RefersAll.rebind {parameter : String} {ty : Ty} {anyway before after : Typing}
    (hcarries : Typing.Carries parameter ty anyway before after) :
    (plans : List Plan) → RefersAll before plans →
      RefersAll anyway (rebindAll parameter ty plans) →
      RefersAll after (rebindAll parameter ty plans)
  | [], _, _ => trivial
  | plan :: rest, hbefore, hanyway =>
    ⟨Refers.rebind hcarries plan hbefore.1 hanyway.1,
      RefersAll.rebind hcarries rest hbefore.2 hanyway.2⟩

end

/-- The body of a binding of a value of another type fits, if the parameters that are bound inside
do. -/
theorem Refers.rebind_given {body : Plan} {name : String} {item? : Option Ty} {ty : Ty}
    (hbody : body.Refers (Γ.within name item?)) (hfree : (body.rebind name ty).Refers .free) :
    (body.rebind name ty).Refers (Γ.within name (some ty)) := by
  refine Refers.rebind (fun other => Or.inr ?_) body hbody hfree
  by_cases hname : other = name
  · exact Or.inl ⟨hname, Typing.within_self.mpr rfl⟩
  · refine Or.inr ⟨hname, fun otherTy hty => ?_⟩
    exact (Typing.within_of_ne hname).mpr ((Typing.within_of_ne hname).mp hty)

/-- Well-typed plans lack nothing. -/
theorem WellTyped.chainFits : (plan : Plan) → plan.WellTyped Γ → plan.ChainFits
  | unary _ _ operand, h => fun _ => ⟨h.named.1,
      WellTyped.chainFits operand ⟨h.determined.2, h.named.2, h.refers⟩⟩
  | bind _ .given source _ body, h =>
    ⟨WellTyped.chainFits source ⟨h.determined.2.1, h.named.2.1, h.refers.1⟩, h.named.2.2,
      Refers.mono (fun _ _ _ => trivial) body h.refers.2⟩
  | call _ _ _ _ (first :: _), h =>
    WellTyped.chainFits first ⟨h.determined.2.1, h.named.2.1, h.refers.1⟩
  | call _ _ _ _ [], _ => trivial
  | const _ _, _ | param _ _, _ | binary _ _ _ _, _ | cond _ _ _ _, _ | record _ _ _, _ => trivial
  | bind _ .filter _ _ _, _ | bind _ .project _ _ _, _ | bind _ (.orderBy _) _ _ _, _ => trivial

/-- A plan that was built again above a graft: every node has the type that its operands
determine, and the plan is well typed if its chain lacks nothing. -/
structure Regrown (Γ : Typing) (plan : Plan) : Prop where
  determined : plan.Everywhere Determines
  wellTyped : plan.ChainFits → plan.WellTyped Γ

/-- The chain above what a graft gives is built again, whatever type that has. -/
theorem graft_regrown {method : String} {root : Ty} {scion : Plan → Compile Node}
    (hscion : ∀ list : Plan, list.ty.isSequence = true → list.WellTyped Γ →
      Halting.Ensures (scion list) fun node => node.plan.WellTyped Γ) :
    (plan : Plan) → plan.WellTyped Γ →
      Halting.Ensures (plan.graft method root scion) fun node => node.plan.Regrown Γ := by
  intro plan hplan
  unfold graft
  by_cases hsequence : plan.ty.isSequence = true
  · rw [if_pos hsequence]
    exact (hscion plan hsequence hplan).mono fun node hnode => ⟨hnode.determined, fun _ => hnode⟩
  · rw [if_neg hsequence]
    -- only links are grown again; what hangs beside the chain stays well typed as it was
    match plan, hplan with
    | unary ty op operand, hplan =>
      dsimp only
      split
      · rename_i hlink
        refine .bind (graft_regrown hscion operand
          ⟨hplan.determined.2, hplan.named.2, hplan.refers⟩) fun node hnode => ?_
        split
        · have hdetermined : (unary ty op node.plan).retype.Everywhere Determines :=
            ⟨determines_retype (unary ty op node.plan), hnode.determined⟩
          refine .pure ⟨hdetermined, fun hfits => ?_⟩
          obtain ⟨hnames, hbelow⟩ := hfits hlink
          have hoperand := hnode.wellTyped hbelow
          exact ⟨hdetermined, ⟨hnames, hoperand.named⟩, hoperand.refers⟩
        · exact .fail _
      · exact .fail _
    | bind ty .given source name body, hplan =>
      refine .bind (graft_regrown hscion source
        ⟨hplan.determined.2.1, hplan.named.2.1, hplan.refers.1⟩) fun node hnode => ?_
      split
      · have hdetermined : (bind ty .given node.plan name
            (body.rebind name node.plan.ty.underlying)).retype.Everywhere Determines :=
          ⟨rfl, hnode.determined, determined_rebind _ _ body⟩
        refine .pure ⟨hdetermined, fun hfits => ?_⟩
        obtain ⟨hbelow, hnamed, hfree⟩ := hfits
        have hsource := hnode.wellTyped hbelow
        exact ⟨hdetermined, ⟨trivial, hsource.named, hnamed⟩, hsource.refers,
          hplan.refers.2.rebind_given hfree⟩
      · exact .fail _
    | call ty name service? run (first :: rest), hplan =>
      refine .bind (graft_regrown hscion first
        ⟨hplan.determined.2.1, hplan.named.2.1, hplan.refers.1⟩) fun node hnode => .pure ?_
      refine ⟨⟨trivial, hnode.determined, hplan.determined.2.2⟩, fun hfits => ?_⟩
      have hfirst := hnode.wellTyped hfits
      exact ⟨⟨trivial, hfirst.determined, hplan.determined.2.2⟩,
        ⟨trivial, hfirst.named, hplan.named.2.2⟩, hfirst.refers, hplan.refers.2⟩
    | call _ _ _ _ [], _ => exact .fail _
    | bind _ .filter _ _ _, _ | bind _ .project _ _ _, _ | bind _ (.orderBy _) _ _ _, _ =>
      exact .fail _
    | const _ _, _ | param _ _, _ | binary _ _ _ _, _ | cond _ _ _ _, _ | record _ _ _, _ =>
      exact .fail _

end Plan

/-- A graft may give anything that is well typed. In the chain that is built again above it every
node has the type that its operands determine, and it is well typed exactly if accesses to records
still name fields, in the chain and in the bodies of its bindings, and references in these bodies to
parameters that are bound there have the types of what is bound to them. -/
theorem Node.graft_wellTyped {Γ : Typing} {node : Node} (method : String)
    {scion : Node → Compile Node} (hnode : node.plan.WellTyped Γ)
    (hscion : ∀ list : Plan, list.ty.isSequence = true → list.WellTyped Γ →
      Halting.Ensures (scion { node with plan := list }) fun node => node.plan.WellTyped Γ) :
    Halting.Ensures (node.graft method scion) fun result =>
      result.plan.Everywhere Plan.Determines ∧
        (result.plan.WellTyped Γ ↔ result.plan.ChainFits) :=
  (Plan.graft_regrown hscion node.plan hnode).mono fun _ hresult =>
    ⟨hresult.determined, Plan.WellTyped.chainFits _, hresult.wellTyped⟩

/-- The people of a context, with their names. -/
def people : Plan := .param (.list (.record [("name", .string), ("age", .int .i32)])) "people"

/-- The name of the first of the people. -/
def firstName : Node := .ofPlan ((people.reduce .first).member "name" .string)

/-- Puts a number in the place of every name. -/
def numbered (list : Node) : Compile Node :=
  return list.map fun plan =>
    plan.project "item" (.newRecord [("name", .int .i32)] [.const (.int .i32) (.int 1)])

/-- The name of the first of the people is well typed. -/
theorem firstName_wellTyped : firstName.plan.WellTyped .free where
  determined := by
    refine ⟨?_, rfl, trivial⟩
    intro fields fieldTy hfields hfield
    cases hfields
    exact Option.some.inj hfield
  named := by
    refine ⟨?_, trivial, trivial⟩
    intro fields hfields
    cases hfields
    exact ⟨.string, rfl⟩
  refers := trivial

/-- Numbers in the place of names are well typed on every list that is. -/
theorem numbered_wellTyped (list : Plan) (hlist : list.WellTyped .free) :
    Halting.Ensures (numbered { firstName with plan := list })
      fun node => node.plan.WellTyped .free :=
  .pure ⟨⟨rfl, hlist.determined, trivial, trivial, trivial⟩,
    ⟨trivial, hlist.named, trivial, trivial, trivial⟩, hlist.refers, trivial, trivial⟩

/-- The name of the first of the people is a number once all names are numbers. -/
theorem Node.graft_wellTyped_numbered :
    ∃ result session, firstName.graft "select" numbered ⟨0, .empty⟩ = .ok result session ∧
      firstName.plan.WellTyped .free ∧ firstName.ty = .string ∧
      result.plan.WellTyped .free ∧ result.ty = .int .i32 := by
  refine ⟨_, _, rfl, firstName_wellTyped, rfl, ?_, rfl⟩
  refine (Node.graft_wellTyped "select" firstName_wellTyped
    (fun list _ hlist => numbered_wellTyped list hlist) ⟨0, .empty⟩ _ _ rfl).2.mpr ?_
  refine fun _ => ⟨fun fields hfields => ?_, fun _ => ⟨trivial, trivial⟩⟩
  cases hfields
  exact ⟨.int .i32, rfl⟩

end TypedQuery
