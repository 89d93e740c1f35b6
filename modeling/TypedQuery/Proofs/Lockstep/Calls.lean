import TypedQuery.Proofs.Entries
import TypedQuery.Proofs.Lockstep.Plans
import TypedQuery.Proofs.Method.Typing

/-!
# Calling methods on nodes that are alike

Nodes that are alike go through grafts and method calls in lockstep: both calls stop for the same
reason, or give nodes that are alike again. The standard methods do not tell such nodes apart.
-/

namespace TypedQuery

open Halting

namespace Plan

variable {L : Likeness} {captured : List String} {plan exact : Plan}

/-- A parameter is bound anew in each of several plans. -/
theorem rebindAll_eq_map (name : String) (ty : Ty) (plans : List Plan) :
    rebindAll name ty plans = plans.map (rebind name ty) := by
  induction plans with
  | nil => rfl
  | cons plan rest ih =>
    unfold rebindAll
    rw [ih]
    rfl

/-- Alike plans are alike with their types computed anew. -/
theorem Alike.retype (h : Alike L captured plan exact) :
    Alike L captured plan.retype exact.retype := by
  cases h with
  | unary hoperand =>
    simp only [Plan.retype, hoperand.ty_eq]
    exact .unary hoperand
  | binary hleft hright =>
    simp only [Plan.retype, hleft.ty_eq]
    exact .binary hleft hright
  | bind hname hsource hbody =>
    simp only [Plan.retype, hsource.ty_eq, hbody.ty_eq]
    exact .bind hname hsource hbody
  | const => exact .const
  | param hname => exact .param hname
  | cond htest hyes hno => exact .cond htest hyes hno
  | record hvalues => exact .record hvalues
  | call harguments => exact .call harguments
  | written hwritten hname => exact .written hwritten hname

/-- The parameter of a binder gets another type on both sides. -/
theorem Alike.rebind (h : Alike L captured plan exact) {name other : String}
    (hname : L.binders name other) (ty : Ty) :
    Alike L captured (plan.rebind name ty) (exact.rebind other ty) := by
  have hpairs : ∀ pairs : List (Plan × Plan),
      (rebindAll name ty (pairs.map Prod.fst) =
          (pairs.map fun pair => (pair.1.rebind name ty, pair.2.rebind other ty)).map Prod.fst) ∧
        rebindAll other ty (pairs.map Prod.snd) =
          (pairs.map fun pair => (pair.1.rebind name ty, pair.2.rebind other ty)).map Prod.snd := by
    intro pairs
    simp [rebindAll_eq_map]
  induction h with
  | const => exact .const
  | param hparam =>
    unfold Plan.rebind
    simp only [L.unique hname hparam]
    exact .param hparam
  | unary _ ih => exact Alike.retype (.unary ih)
  | binary _ _ ihl ihr => exact Alike.retype (.binary ihl ihr)
  | cond _ _ _ iht ihy ihn => exact .cond iht ihy ihn
  | bind hbinder _ _ ihs ihb => exact Alike.retype (.bind hbinder ihs ihb)
  | record _ ih =>
    unfold Plan.rebind
    rw [(hpairs _).1, (hpairs _).2]
    exact .record (List.forall_mem_map.mpr ih)
  | call _ ih =>
    unfold Plan.rebind
    rw [(hpairs _).1, (hpairs _).2]
    exact .call (List.forall_mem_map.mpr ih)
  | written hwritten hmem =>
    unfold Plan.rebind
    rw [if_neg (Ne.symm (L.separate hwritten hname _))]
    exact .written hwritten hmem

end Plan

namespace Node

variable {L : Likeness} {node exact a b a' b' : Node} {plan plan' : Plan}

/-- Two nodes that capture the same variables and need the same services have plans that are
alike. -/
structure Alike (L : Likeness) (node exact : Node) : Prop where
  plan : node.plan.Alike L (Entries.names exact.constants) exact.plan
  constants : node.constants = exact.constants
  services : node.services = exact.services

/-- Alike nodes have the same type. -/
theorem Alike.ty_eq (h : node.Alike L exact) : node.ty = exact.ty :=
  h.plan.ty_eq

/-- A node with a plan that is made of its own. -/
theorem Alike.map (h : node.Alike L exact) {f g : Plan → Plan}
    (hplan : Plan.Alike L (Entries.names exact.constants) (f node.plan) (g exact.plan)) :
    (node.map f).Alike L (exact.map g) :=
  ⟨hplan, h.constants, h.services⟩

/-- The plans on the left of a join are alike up to the variables of both sides. -/
theorem Alike.plan_left (h : a.Alike L a') (b' : Node) :
    Plan.Alike L (Entries.names (Entries.extend a'.constants b'.constants)) a.plan a'.plan :=
  h.plan.mono fun _ hname => Entries.mem_names_extend.mpr (Or.inl hname)

/-- The plans on the right of a join are alike up to the variables of both sides. -/
theorem Alike.plan_right (h : b.Alike L b') (a' : Node) :
    Plan.Alike L (Entries.names (Entries.extend a'.constants b'.constants)) b.plan b'.plan :=
  h.plan.mono fun _ hname => Entries.mem_names_extend.mpr (Or.inr hname)

/-- Nodes are joined with a plan that is made of both. -/
theorem Alike.join (ha : a.Alike L a') (hb : b.Alike L b')
    (hplan : Plan.Alike L (Entries.names (Entries.extend a'.constants b'.constants)) plan plan') :
    (a.join b plan).Alike L (a'.join b' plan') := by
  refine ⟨hplan, ?_, ?_⟩
  · unfold Node.join
    rw [ha.constants, hb.constants]
  · unfold Node.join
    rw [ha.services, hb.services]

/-- Alike nodes that need a further service are alike. -/
theorem Alike.needService (h : node.Alike L exact) (service : String) :
    (node.needService service).Alike L (exact.needService service) := by
  refine ⟨h.plan, h.constants, ?_⟩
  unfold Node.needService
  rw [h.services]

/-- Parameters that stand for each other. -/
theorem alike_param (ty : Ty) {name other : String} (hname : L.names name other) :
    (ofPlan (.param ty name)).Alike L (ofPlan (.param ty other)) :=
  ⟨.param hname, rfl, rfl⟩

/-- The same for nodes that also capture the given names. -/
structure AlikeKeeping (L : Likeness) (captured : List String) (node exact : Node) : Prop
    extends node.Alike L exact where
  kept : ∀ name ∈ captured, name ∈ Entries.names exact.constants

/-- What is made of alike nodes is alike and captures the same variables if its plans are alike. -/
theorem AlikeKeeping.map {captured : List String} (h : node.AlikeKeeping L captured exact)
    {f g : Plan → Plan}
    (hplan : Plan.Alike L (Entries.names exact.constants) (f node.plan) (g exact.plan)) :
    (node.map f).AlikeKeeping L captured (exact.map g) :=
  ⟨h.toAlike.map hplan, h.kept⟩

/-- A node that is joined to another one keeps the variables of that one. -/
theorem AlikeKeeping.join (ha : a.Alike L a') (hb : b.Alike L b')
    (hplan : Plan.Alike L (Entries.names (Entries.extend a'.constants b'.constants)) plan plan') :
    (a.join b plan).AlikeKeeping L (Entries.names a'.constants) (a'.join b' plan') :=
  ⟨ha.join hb hplan, fun _ hname => Entries.mem_names_extend.mpr (Or.inl hname)⟩

end Node

namespace Plan

variable {L : Likeness} {captured : List String} {plan exact : Plan}

/-- Grafts on both plans go on in parallel if what is grafted does. -/
theorem Alike.graft (h : Alike L captured plan exact) {method : String} {root : Ty}
    {scion scion' : Plan → Compile Node}
    (hscion : ∀ list list', Alike L captured list list' →
      Halting.Lockstep L.sessions (Node.AlikeKeeping L captured) (scion list) (scion' list')) :
    Halting.Lockstep L.sessions (Node.AlikeKeeping L captured) (plan.graft method root scion)
      (exact.graft method root scion') := by
  have hmore : ∀ {node exact : Node}, node.AlikeKeeping L captured exact → ∀ {plan plan' : Plan},
      Alike L captured plan plan' → Alike L (Entries.names exact.constants) plan plan' :=
    fun hnode _ _ h => h.mono hnode.kept
  -- along the chain; the nodes that come back capture more, and under that the rest stays alike
  induction h with
  | unary hoperand ih =>
    unfold Plan.graft
    refine .ite (fun _ => hscion _ _ (.unary hoperand)) fun _ => ?_
    refine .ite (fun _ => .bind ih fun node exact hnode => ?_) fun _ => .fail _
    rw [hnode.ty_eq]
    exact .ite (fun _ => .pure (hnode.map (Alike.retype (.unary hnode.plan)))) fun _ => .fail _
  | @bind ty binder _ _ _ _ name other hname hsource hbody ihs _ =>
    unfold Plan.graft
    refine .ite (fun _ => hscion _ _ (.bind hname hsource hbody)) fun _ => ?_
    cases binder with
    | given =>
      refine .bind ihs fun node exact hnode => ?_
      rw [hnode.ty_eq]
      refine .ite (fun _ => .pure (hnode.map (Alike.retype (.bind hname hnode.plan ?_))))
        fun _ => .fail _
      rw [hnode.plan.ty_eq]
      exact (hmore hnode hbody).rebind hname _
    | filter | project | orderBy _ => exact .fail _
  | @call ty name service run pairs harguments ih =>
    unfold Plan.graft
    refine .ite (fun _ => hscion _ _ (.call harguments)) fun _ => ?_
    cases pairs with
    | nil => exact .fail _
    | cons first rest =>
      refine .bind (ih first List.mem_cons_self) fun node exact hnode => .pure (hnode.map ?_)
      have hpairs : ∀ pair ∈ (node.plan, exact.plan) :: rest,
          Alike L (Entries.names exact.constants) pair.1 pair.2 :=
        List.forall_mem_cons.mpr ⟨hnode.plan, fun pair hpair =>
          hmore hnode (harguments pair (List.mem_cons_of_mem _ hpair))⟩
      exact .call hpairs
  | const =>
    unfold Plan.graft
    exact .ite (fun _ => hscion _ _ .const) fun _ => .fail _
  | param hname =>
    unfold Plan.graft
    exact .ite (fun _ => hscion _ _ (.param hname)) fun _ => .fail _
  | binary hleft hright =>
    unfold Plan.graft
    exact .ite (fun _ => hscion _ _ (.binary hleft hright)) fun _ => .fail _
  | cond htest hyes hno =>
    unfold Plan.graft
    exact .ite (fun _ => hscion _ _ (.cond htest hyes hno)) fun _ => .fail _
  | record hvalues =>
    unfold Plan.graft
    exact .ite (fun _ => hscion _ _ (.record hvalues)) fun _ => .fail _
  | written hwritten hname =>
    unfold Plan.graft
    exact .ite (fun _ => hscion _ _ (.written hwritten hname)) fun _ => .fail _

end Plan

variable {L : Likeness} {receiver receiver' caller caller' : Node}
  {arguments arguments' : List CallArgument}

/-- Two arguments are the same expression and compile in lockstep. -/
structure CallArgument.Alike (L : Likeness) (argument exact : CallArgument) : Prop where
  expr : argument.expr = exact.expr
  compile : ∀ context context' : Node, context.Alike L context' →
    Halting.Lockstep L.sessions (Node.Alike L) (argument.compile context) (exact.compile context')

/-- A method does not tell nodes apart that are alike. If it needs a list, it keeps the variables
of the list. -/
def Method.Uniform (L : Likeness) (method : Method) : Prop :=
  ∀ (receiver receiver' caller caller' : Node) (arguments arguments' : List CallArgument),
    receiver.Alike L receiver' → caller.Alike L caller' →
    List.Forall₂ (CallArgument.Alike L) arguments arguments' →
    Halting.Lockstep L.sessions (fun node exact => node.Alike L exact ∧
        (method.needsSequence = true →
          node.AlikeKeeping L (Entries.names receiver'.constants) exact))
      (method.apply receiver caller arguments) (method.apply receiver' caller' arguments')

/-- All methods of a library are uniform. -/
def MethodLibrary.Uniform (L : Likeness) (library : MethodLibrary) : Prop :=
  ∀ name method, library.find? name = some method → method.Uniform L

/-- Calls of uniform methods go on in lockstep. -/
theorem MethodLibrary.call_lockstep {library : MethodLibrary} {name : String}
    (hlibrary : library.Uniform L) (hreceiver : receiver.Alike L receiver')
    (hcaller : caller.Alike L caller')
    (harguments : List.Forall₂ (CallArgument.Alike L) arguments arguments') :
    Halting.Lockstep L.sessions (Node.Alike L) (library.call receiver name arguments caller)
      (library.call receiver' name arguments' caller') := by
  unfold call
  rw [hreceiver.ty_eq, harguments.length_eq]
  cases hfind : library.find? name with
  | none => exact .fail _
  | some method =>
    have hmethod := hlibrary name method hfind
    refine .check fun _ => .ite (fun hgraft => ?_) fun _ => ?_
    · simp only [Bool.and_eq_true] at hgraft
      unfold Node.graft
      rw [hreceiver.ty_eq]
      refine .mono (hreceiver.plan.graft fun list list' hlist => ?_) fun _ _ h => h.toAlike
      refine .mono (hmethod { receiver with plan := list } { receiver' with plan := list' }
        caller caller' arguments arguments' ⟨hlist, hreceiver.constants, hreceiver.services⟩
        hcaller harguments) fun _ _ h => h.2 hgraft.1
    · exact .mono (hmethod _ _ _ _ _ _ hreceiver hcaller harguments) fun _ _ h => h.1

/-- Two calls of a method have receivers and arguments that are alike. -/
structure MethodCall.Alike (L : Likeness) (call exact : MethodCall) : Prop where
  name : call.name = exact.name
  receiver : call.receiver.Alike L exact.receiver
  inner : call.inner.Alike L exact.inner
  arguments : List.Forall₂ (CallArgument.Alike L) call.arguments exact.arguments

/-- The same for calls whose arguments are compiled on an item of the receiver. -/
structure MethodCall.AlikeOnItems (L : Likeness) (call exact : MethodCall) : Prop
    extends call.Alike L exact where
  element : L.binders call.elementName exact.elementName

namespace Method

variable {L : Likeness} {call exact : MethodCall} {method : Method}

/-- A method whose arguments stand on items is uniform if its rule gives alike nodes for alike
calls. -/
theorem uniform_of_onItems (hcontext : method.context = .element)
    (h : ∀ call exact : MethodCall, call.AlikeOnItems L exact →
      Halting.Lockstep L.sessions (Node.AlikeKeeping L (Entries.names exact.receiver.constants))
        (method.build call) (method.build exact)) : method.Uniform L := by
  intro receiver receiver' caller caller' arguments arguments' hreceiver hcaller harguments
  unfold apply
  rw [hcontext, hreceiver.ty_eq]
  dsimp only
  split
  · exact .fail _
  · rename_i element _
    refine .bind L.fresh fun name other hname => ?_
    refine .mono (h ⟨method.name, receiver, .ofPlan (.param element name), arguments⟩
      ⟨method.name, receiver', .ofPlan (.param element other), arguments'⟩ ?_)
      fun _ _ h => ⟨h.toAlike, fun _ => h⟩
    exact ⟨⟨rfl, hreceiver, Node.alike_param element (L.names_of_binders hname), harguments⟩, hname⟩

/-- A method whose arguments stand on the caller is uniform if its rule gives alike nodes for alike
calls, which keep the variables of a list. -/
theorem uniform_of_atCaller (hcontext : method.context = .caller)
    (h : ∀ call exact : MethodCall, call.Alike L exact →
      Halting.Lockstep L.sessions (fun node exact' => node.Alike L exact' ∧
          (method.onSequence = true →
            node.AlikeKeeping L (Entries.names exact.receiver.constants) exact'))
        (method.build call) (method.build exact)) : method.Uniform L := by
  intro receiver receiver' caller caller' arguments arguments' hreceiver hcaller harguments
  unfold apply
  rw [hcontext]
  refine .mono (h ⟨method.name, receiver, caller, arguments⟩
    ⟨method.name, receiver', caller', arguments'⟩ ⟨rfl, hreceiver, hcaller, harguments⟩)
    fun node exact hnode => ⟨hnode.1, fun hneeds => hnode.2 ?_⟩
  simpa [needsSequence, hcontext] using hneeds

/-- The arguments of alike calls compile to alike nodes. -/
theorem compileArgument_lockstep (h : call.Alike L exact) (index : Nat) :
    Halting.Lockstep L.sessions (Node.Alike L) (call.compileArgument index)
      (exact.compileArgument index) := by
  have hargument := rel_getElem?_of_forall₂ h.arguments index
  unfold MethodCall.compileArgument
  rw [h.name, h.arguments.length_eq]
  generalize call.arguments[index]? = argument?, exact.arguments[index]? = other? at hargument ⊢
  cases hargument with
  | none => exact .fail _
  | some hargument => exact hargument.compile _ _ h.inner

/-- The predicates of alike calls compile to alike nodes. -/
theorem predicate_lockstep (h : call.Alike L exact) :
    Halting.Lockstep L.sessions (Node.Alike L) (predicate call) (predicate exact) := by
  refine .bind (compileArgument_lockstep h 0) fun node node' hnode => ?_
  have hplan := hnode.plan.asPredicate?
  rw [h.name, hnode.ty_eq]
  generalize node.plan.asPredicate? = plan?, node'.plan.asPredicate? = other? at hplan ⊢
  cases hplan with
  | none => exact .fail _
  | some hplan => exact .pure ⟨hplan, hnode.constants, hnode.services⟩

/-- Alike calls filter to alike nodes. -/
theorem filtered_lockstep (h : call.AlikeOnItems L exact) :
    Halting.Lockstep L.sessions (Node.AlikeKeeping L (Entries.names exact.receiver.constants))
      (filtered call) (filtered exact) := by
  have hempty : call.arguments.isEmpty = exact.arguments.isEmpty := by
    rw [Bool.eq_iff_iff, List.isEmpty_iff_length_eq_zero, List.isEmpty_iff_length_eq_zero,
      h.arguments.length_eq]
  unfold filtered
  rw [hempty]
  refine .ite (fun _ => .pure ⟨h.receiver, fun _ hname => hname⟩) fun _ => ?_
  refine .bind (predicate_lockstep h.toAlike) fun test test' htest => .pure ?_
  exact .join h.receiver htest
    (.filter h.element (h.receiver.plan_left test') (htest.plan_right exact.receiver))

/-- Alike calls sort to alike nodes. -/
theorem orderBy_lockstep (descending : Bool) (h : call.AlikeOnItems L exact) :
    Halting.Lockstep L.sessions (Node.AlikeKeeping L (Entries.names exact.receiver.constants))
      (orderBy descending call) (orderBy descending exact) := by
  refine .bind (compileArgument_lockstep h.toAlike 0) fun key key' hkey => ?_
  rw [hkey.ty_eq, h.name]
  refine .ite (fun _ => .pure ?_) fun _ => .fail _
  exact .join h.receiver hkey
    (.orderBy h.element (h.receiver.plan_left key') (hkey.plan_right exact.receiver) descending)

/-- Alike calls cut alike parts of lists. -/
theorem page_lockstep (op : BinaryOp) (h : call.Alike L exact) :
    Halting.Lockstep L.sessions (Node.AlikeKeeping L (Entries.names exact.receiver.constants))
      (page (fun source count => .binary source.ty op source count) call)
      (page (fun source count => .binary source.ty op source count) exact) := by
  refine .bind (compileArgument_lockstep h 0) fun count count' hcount => ?_
  rw [hcount.ty_eq, h.receiver.ty_eq, h.name]
  refine .ite (fun _ => .fail _) fun _ => .pure ?_
  exact .join h.receiver hcount ((h.receiver.plan_left count').cut
    ((hcount.plan_right exact.receiver).convertOperand _) op)

/-- Alike arguments list the same values. -/
theorem listed_eq (h : List.Forall₂ (CallArgument.Alike L) arguments arguments') :
    (arguments.mapM fun argument => listed argument.expr) =
      arguments'.mapM fun argument => listed argument.expr := by
  induction h with
  | nil => rfl
  | cons hfirst _ ih => rw [List.mapM_cons, List.mapM_cons, hfirst.expr, ih]

/-- Alike calls test membership alike. -/
theorem inSet_lockstep (h : call.Alike L exact) :
    Halting.Lockstep L.sessions (Node.Alike L) (inSet call) (inSet exact) := by
  unfold inSet
  rw [listed_eq h.arguments, h.receiver.ty_eq, h.name]
  refine .check fun set => .check fun ty => ?_
  exact .ite (fun _ => .fail _) fun _ => .pure (h.receiver.map (.unary h.receiver.plan))

/-- Alike calls test texts alike. -/
theorem textTest_lockstep (test : TextTest) (h : call.Alike L exact) :
    Halting.Lockstep L.sessions (Node.Alike L) (textTest test call) (textTest test exact) := by
  refine .bind (compileArgument_lockstep h 0) fun argument argument' hargument => ?_
  rw [hargument.ty_eq, h.receiver.ty_eq, h.name]
  refine .ite (fun _ => .pure ?_) fun _ => .fail _
  exact h.receiver.join hargument
    (.binary (h.receiver.plan_left argument') (hargument.plan_right exact.receiver))

/-- Alike calls negate alike. -/
theorem not_lockstep (h : call.Alike L exact) :
    Halting.Lockstep L.sessions (Node.Alike L) (not call) (not exact) := by
  refine .bind (compileArgument_lockstep h 0) fun operand operand' hoperand => ?_
  have hplan := hoperand.plan.asPredicate?
  rw [hoperand.ty_eq]
  generalize operand.plan.asPredicate? = plan?, operand'.plan.asPredicate? = other? at hplan ⊢
  cases hplan with
  | none => exact .fail _
  | some hplan => exact .pure ⟨.unary hplan, hoperand.constants, hoperand.services⟩

/-- Every standard method is uniform. -/
theorem uniform_of_mem_standard (hmem : method ∈ standard) : method.Uniform L := by
  have hplain : ∀ {build : MethodCall → Compile Node} {name : String} {arity : Arity},
      (∀ call exact : MethodCall, call.Alike L exact →
        Halting.Lockstep L.sessions (Node.Alike L) (build call) (build exact)) →
      Method.Uniform L ⟨name, arity, .caller, false, build⟩ := by
    intro build name arity h
    exact uniform_of_atCaller rfl fun call exact hcall =>
      .mono (h call exact hcall) fun node exact' hnode => ⟨hnode, nofun⟩
  have hpage : ∀ {op : BinaryOp} {name : String} {arity : Arity},
      Method.Uniform L ⟨name, arity, .caller, true,
        page fun source count => .binary source.ty op source count⟩ := by
    intro op name arity
    exact uniform_of_atCaller rfl fun call exact hcall =>
      .mono (page_lockstep op hcall) fun node exact' hnode => ⟨hnode.toAlike, fun _ => hnode⟩
  have hfiltered : ∀ {name : String} {arity : Arity},
      Method.Uniform L ⟨name, arity, .element, false, filtered⟩ := by
    intro name arity
    exact uniform_of_onItems rfl fun call exact hcall => filtered_lockstep hcall
  have hreduce : ∀ {reduction : Reduction} {name : String} {arity : Arity},
      Method.Uniform L ⟨name, arity, .element, false, reduce reduction⟩ := by
    intro reduction name arity
    exact uniform_of_onItems rfl fun call exact hcall => .bind (filtered_lockstep hcall)
      fun node exact' hnode => .pure (hnode.map (hnode.plan.reduce reduction))
  have horder : ∀ {descending : Bool} {name : String} {arity : Arity},
      Method.Uniform L ⟨name, arity, .element, false, orderBy descending⟩ := by
    intro descending name arity
    exact uniform_of_onItems rfl fun call exact hcall => orderBy_lockstep descending hcall
  simp only [standard, List.mem_cons, List.not_mem_nil, or_false] at hmem
  rcases hmem with rfl | rfl | rfl | rfl | rfl | rfl | rfl | rfl | rfl | rfl | rfl | rfl | rfl |
    rfl | rfl | rfl
  · exact hfiltered
  · exact hfiltered
  · exact hreduce
  · exact hreduce
  · exact hreduce
  · exact uniform_of_onItems rfl fun call exact hcall => .bind (filtered_lockstep hcall)
      fun node exact' hnode => .pure (hnode.map hnode.plan.distinct)
  · exact hpage
  · exact hpage
  · exact horder
  · exact horder
  · exact hplain fun call exact hcall => inSet_lockstep hcall
  · exact hplain fun call exact hcall => textTest_lockstep _ hcall
  · exact hplain fun call exact hcall => textTest_lockstep _ hcall
  · exact hplain fun call exact hcall => textTest_lockstep _ hcall
  · exact hplain fun call exact hcall => textTest_lockstep _ hcall
  · exact hplain fun call exact hcall => not_lockstep hcall

end Method

/-- The library of the standard methods is uniform. -/
theorem MethodLibrary.uniform_standard : standard.Uniform L :=
  fun _ _ h => Method.uniform_of_mem_standard (mem_of_find?_ofList h)

end TypedQuery
