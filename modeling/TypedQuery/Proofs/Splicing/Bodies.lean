import TypedQuery.Proofs.Document.Typing
import TypedQuery.Proofs.Lockstep.Renaming
import TypedQuery.Proofs.Query.Closed

/-!
# Bodies of selections

The record that a selection set makes of a value refers to the value at its type, every node in it
has the type that its operands determine, and no parameter that is bound in it has the name of the
value. So nothing in it changes when its parameter gets the type that it has.
-/

namespace TypedQuery

open Halting

namespace Plan

mutual

/-- The parameters that are bound in a plan. -/
def binders : Plan → List String
  | const _ _ | param _ _ => []
  | unary _ _ operand => binders operand
  | binary _ _ left right => binders left ++ binders right
  | cond _ test yes no => binders test ++ (binders yes ++ binders no)
  | bind _ _ source name body => name :: (binders source ++ binders body)
  | record _ _ values => bindersAll values
  | call _ _ _ _ arguments => bindersAll arguments

/-- The same for a list of plans. -/
def bindersAll : List Plan → List String
  | [] => []
  | plan :: rest => binders plan ++ bindersAll rest

end

variable {A : Assumptions} {services : List String} {Γ : Typing} {plan : Plan}

/-- The parameters that several plans bind are those of each. -/
theorem mem_bindersAll {plans : List Plan} {name : String} :
    name ∈ bindersAll plans ↔ ∃ plan ∈ plans, name ∈ plan.binders := by
  induction plans with
  | nil => simp [bindersAll]
  | cons plan rest ih => simp [bindersAll, ih]

/-- A well-typed node has the type that its operands determine. -/
theorem Typed.retype_eq (h : Typed A services Γ plan) : plan.retype = plan := by
  cases h with
  | @unary _ ty op operand _ hfits =>
    have hty : (op.ty? operand.ty).getD ty = ty := by
      cases op with
      | member name => exact member?_of_hasMember hfits
      | distinct | reduce _ => exact hfits.symm
      | not | convert | inSet _ => rfl
    exact congrArg (Plan.unary · op operand) hty
  | @binary _ ty op left right _ _ hfits =>
    have hty : (op.ty? left.ty).getD ty = ty := by
      cases op with
      | take | skip => exact hfits.symm
      | operator _ | compareText | textTest _ => rfl
    exact congrArg (Plan.binary · op left right) hty
  | @bind _ ty item binder source body name _ _ hfits =>
    have hty : binder.ty source.ty body.ty = ty := by
      cases binder with
      | filter | orderBy _ | project | given => exact hfits.2.symm
    exact congrArg (Plan.bind · binder source name body) hty
  | const _ _ | param _ | cond _ _ _ _ | record _ _ | call _ _ _ => rfl

/-- A parameter of a well-typed plan gets the type that all references to it have. Nothing changes,
if the plan does not bind a parameter of the same name. -/
theorem Typed.rebind_eq (h : Typed A services Γ plan) {name : String} {ty : Ty}
    (hΓ : ∀ other, Γ name other → other = ty) (hbinders : name ∉ plan.binders) :
    plan.rebind name ty = plan := by
  induction h with
  | const _ _ => rfl
  | @param Γ paramTy other hparam =>
    change Plan.param (if other = name then ty else paramTy) other = Plan.param paramTy other
    split
    · rename_i hname
      subst hname
      rw [hΓ paramTy hparam]
    · rfl
  | unary hoperand hfits ih =>
    unfold rebind
    rw [ih hΓ hbinders]
    exact Typed.retype_eq (.unary hoperand hfits)
  | binary hleft hright hfits ihl ihr =>
    obtain ⟨hl, hr⟩ := not_or.mp (mt List.mem_append.mpr hbinders)
    unfold rebind
    rw [ihl hΓ hl, ihr hΓ hr]
    exact Typed.retype_eq (.binary hleft hright hfits)
  | cond _ _ _ _ iht ihy ihn =>
    obtain ⟨ht, hbranches⟩ := not_or.mp (mt List.mem_append.mpr hbinders)
    obtain ⟨hy, hn⟩ := not_or.mp (mt List.mem_append.mpr hbranches)
    unfold rebind
    rw [iht hΓ ht, ihy hΓ hy, ihn hΓ hn]
  | @bind Γ _ item _ _ _ inner hsource hbody hfits ihs ihb =>
    obtain ⟨hname, hinside⟩ := not_or.mp (mt List.mem_cons.mpr hbinders)
    obtain ⟨hs, hb⟩ := not_or.mp (mt List.mem_append.mpr hinside)
    unfold rebind
    rw [ihs hΓ hs, ihb (fun other h => hΓ other ((Typing.bind_of_ne hname).mp h)) hb]
    exact Typed.retype_eq (.bind hsource hbody hfits)
  | record _ _ ih =>
    unfold rebind
    rw [rebindAll_eq_map, List.map_congr_left (g := id) fun value hvalue => ih value hvalue hΓ
      fun h => hbinders (mem_bindersAll.mpr ⟨value, hvalue, h⟩), List.map_id]
  | call _ _ _ ih =>
    unfold rebind
    rw [rebindAll_eq_map, List.map_congr_left (g := id) fun argument hargument =>
      ih argument hargument hΓ fun h => hbinders (mem_bindersAll.mpr ⟨argument, hargument, h⟩),
      List.map_id]

end Plan

namespace Likeness

/-- A compilation and itself, in sessions in which a parameter has got its name already. It is not
bound again. -/
def avoiding (n : Nat) : Likeness where
  names name other := name = other
  binders name other := name = other ∧ name ≠ parameterName n
  sessions session session' := session = session' ∧ n < session.parameters
  written := False
  names_of_binders h := h.1
  unique := by
    rintro _ _ _ _ ⟨rfl, _⟩ rfl
    exact Iff.rfl
  separate h := h.elim
  fresh := by
    rintro _ session _ ⟨rfl, hlt⟩
    refine ⟨⟨rfl, fun h => ?_⟩, rfl, Nat.lt_succ_of_lt hlt⟩
    exact Nat.ne_of_gt hlt (parameterName_inj.mp h)
  create := by
    rintro _ fields session _ ⟨rfl, hlt⟩
    exact ⟨rfl, rfl, hlt⟩

end Likeness

/-- What is compiled after a parameter got its name does not bind it. -/
theorem Plan.Alike.notMem_binders {n : Nat} {captured : List String} {plan exact : Plan}
    (h : plan.Alike (.avoiding n) captured exact) : parameterName n ∉ plan.binders := by
  induction h with
  | const | param _ => exact List.not_mem_nil
  | unary _ ih => exact ih
  | binary _ _ ihl ihr => exact mt List.mem_append.mp (not_or.mpr ⟨ihl, ihr⟩)
  | cond _ _ _ iht ihy ihn =>
    exact mt List.mem_append.mp (not_or.mpr ⟨iht, mt List.mem_append.mp (not_or.mpr ⟨ihy, ihn⟩)⟩)
  | bind hname _ _ ihs ihb =>
    exact mt List.mem_cons.mp (not_or.mpr ⟨Ne.symm hname.2,
      mt List.mem_append.mp (not_or.mpr ⟨ihs, ihb⟩)⟩)
  | record _ ih =>
    intro hmem
    obtain ⟨plan, hplan, hbinder⟩ := mem_bindersAll.mp hmem
    obtain ⟨pair, hpair, rfl⟩ := List.mem_map.mp hplan
    exact ih pair hpair hbinder
  | call _ ih =>
    intro hmem
    obtain ⟨plan, hplan, hbinder⟩ := mem_bindersAll.mp hmem
    obtain ⟨pair, hpair, rfl⟩ := List.mem_map.mp hplan
    exact ih pair hpair hbinder
  | written _ _ => exact List.not_mem_nil

namespace Scope

variable {scope : Scope} {claims : Claims} {path : List String} {selections : List Selection}
  {item : Ty} {session final : Session} {record : Node} {n : Nat}

/-- The record of a value that selections are made on. -/
def recordOn (scope : Scope) (claims : Claims) (path : List String) (selections : List Selection)
    (value : Node) : Run FieldFailure Node := do
  let (record, columns) ← scope.compileColumns .parameter claims path value selections value []
  columnsNode record columns

/-- A scope in which nothing is assumed has to have sound methods, and nothing else. -/
theorem sound_none (claims : Claims) (hmethods : scope.methods.Sound .none) :
    scope.Sound .none ∧ scope.schema.Grants .none claims :=
  let host : Host := ⟨scope.schema, scope.methods, scope.depth⟩
  have h : host.Sound .none scope.vars := Host.sound_none scope.vars hmethods
  ⟨h.scope, h.grants claims⟩

/-- The record is well typed with the parameter that stands for the value. -/
theorem recordOn_ensures (hmethods : scope.methods.Sound .none) :
    Ensures (scope.recordOn claims path selections (.ofPlan (.param item (parameterName n))))
      fun record => record.Sound .none (.only (parameterName n) item) := by
  obtain ⟨hscope, hgrants⟩ := sound_none claims hmethods
  have hvalue : (Node.ofPlan (.param item (parameterName n))).Good .none
      (.only (parameterName n) item) :=
    ⟨⟨fun _ h => absurd h List.not_mem_nil, .param (Or.inl ⟨rfl, rfl⟩)⟩, rfl⟩
  refine .bind (compileColumns_ensures hscope hgrants hvalue path selections
    (selectionsRead_of_forall (fun _ _ _ _ _ => trivial) selections)
    ⟨hvalue.known, List.nodup_nil, fun _ h => absurd h List.not_mem_nil⟩)
    fun ⟨_, _⟩ hcolumns => columnsNode_ensures hcolumns

/-- Records of values that are alike are compiled in lockstep. -/
theorem recordOn_lockstep {L : Likeness} (hcapture : Capture.parameter.Alike L .parameter)
    (hmethods : scope.methods.Uniform L) {value value' : Node} (hvalue : value.Alike L value')
    (claims : Claims) (path : List String) (selections : List Selection) :
    Halting.Lockstep L.sessions (Node.Alike L) (scope.recordOn claims path selections value)
      (scope.recordOn claims path selections value') :=
  .bind (compileColumns_lockstep hcapture hmethods claims hvalue path selections
    ⟨hvalue, .nil⟩) fun _ _ hcolumns => columnsNode_lockstep hcolumns

/-- The record does not bind the parameter that stands for the value. -/
theorem notMem_binders_recordOn (hmethods : scope.methods.Uniform (.avoiding n))
    (hlt : n < session.parameters)
    (h : scope.recordOn claims path selections (.ofPlan (.param item (parameterName n))) session =
      .ok record final) : parameterName n ∉ record.plan.binders := by
  have hcapture : Capture.parameter.Alike (.avoiding n) .parameter :=
    fun name value => ⟨.param rfl, rfl, rfl⟩
  have hvalue : (Node.ofPlan (.param item (parameterName n))).Alike (.avoiding n)
      (.ofPlan (.param item (parameterName n))) := Node.alike_param item rfl
  have hend := recordOn_lockstep hcapture hmethods hvalue claims path selections session session
    ⟨rfl, hlt⟩
  rw [h] at hend
  exact hend.1.plan.notMem_binders

/-- Nothing in the record changes when the parameter that stands for the value gets its type. -/
theorem rebind_recordOn (hsound : scope.methods.Sound .none)
    (huniform : scope.methods.Uniform (.avoiding n)) (hlt : n < session.parameters)
    (h : scope.recordOn claims path selections (.ofPlan (.param item (parameterName n))) session =
      .ok record final) : record.plan.rebind (parameterName n) item = record.plan := by
  have hrecord := recordOn_ensures hsound session record final h
  refine hrecord.typed.rebind_eq ?_ (notMem_binders_recordOn huniform hlt h)
  rintro other (⟨_, rfl⟩ | ⟨x, _, hname, _⟩)
  · rfl
  · exact absurd hname (constantName_ne_fresh n x)

end Scope

end TypedQuery
