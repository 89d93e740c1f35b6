import TypedQuery.Proofs.Value.Preservation

/-!
# Well-typed plans give values of their types

In an environment whose values belong to the types of the parameters, every value of a
well-typed plan without powers belongs to the type of the plan, if the functions of the host
keep their word.
-/

namespace TypedQuery

/-- The results of a function of the host belong to a type. -/
def HostFunction.Honest (members : Members) (ty : Ty) (run : HostFunction) : Prop :=
  ∀ service? arguments, Returns (run service? arguments) fun result => result.Belongs members ty

/-- The values of parameters belong to the types at which they may be referred to. -/
def Environment.Meets (members : Members) (Γ : Typing) (environment : Environment) : Prop :=
  ∀ name ty value, Γ name ty → environment.lookup name = some value → value.Belongs members ty

/-- An environment meets a further parameter with a value that belongs to its type. -/
theorem Environment.Meets.bind {members : Members} {Γ : Typing} {environment : Environment}
    {name : String} {item : Ty} {value : Value} (h : environment.Meets members Γ)
    (hvalue : value.Belongs members item) :
    Environment.Meets members (Γ.bind name item) ((name, value) :: environment) := by
  intro other ty found hty hfound
  by_cases hname : other = name
  · subst hname
    rw [List.lookup_cons_self] at hfound
    cases hfound
    unfold Typing.bind at hty
    rw [if_pos rfl] at hty
    exact hty ▸ hvalue
  · rw [List.lookup_cons, beq_false_of_ne hname] at hfound
    exact h other ty found ((Typing.bind_of_ne hname).mp hty) hfound

namespace Plan

mutual

/-- The operators of a plan. -/
def operators : Plan → List Operator
  | const _ _ | param _ _ => []
  | unary _ _ operand => operators operand
  | binary _ op left right =>
    (match op with
      | .operator op => [op]
      | _ => []) ++ (operators left ++ operators right)
  | cond _ test yes no => operators test ++ (operators yes ++ operators no)
  | bind _ _ source _ body => operators source ++ operators body
  | record _ _ values => operatorsAll values
  | call _ _ _ _ arguments => operatorsAll arguments

/-- The operators of a list of plans. -/
def operatorsAll : List Plan → List Operator
  | [] => []
  | plan :: rest => operators plan ++ operatorsAll rest

end

variable {A : Assumptions} {listed : List String} {Γ : Typing} {plan : Plan}
variable {services : Services} {environment : Environment}

/-- A constant gives its value everywhere. -/
theorem eval_of_constant? {value : Value} (h : plan.constant? = some value) :
    plan.eval services environment = .ok value := by
  cases plan with
  | const ty constant =>
    cases h
    unfold eval
    rfl
  | _ => cases h

/-- The operators of a plan are among those of several plans. -/
theorem mem_operatorsAll {plans : List Plan} {op : Operator} (hplan : plan ∈ plans)
    (hop : op ∈ plan.operators) : op ∈ operatorsAll plans := by
  induction plans with
  | nil => cases hplan
  | cons first rest ih =>
    unfold operatorsAll
    rcases List.mem_cons.mp hplan with rfl | hplan
    · exact List.mem_append_left _ hop
    · exact List.mem_append_right _ (ih hplan)

/-- Plans are evaluated to values with the properties that each returns. -/
theorem returns_evalAll {plans : List Plan} {post : Plan → Value → Prop}
    (h : ∀ plan ∈ plans, Returns (plan.eval services environment) (post plan)) :
    Returns (evalAll services environment plans) fun values => List.Forall₂ post plans values := by
  induction plans with
  | nil =>
    unfold evalAll
    exact .ok .nil
  | cons plan rest ih =>
    unfold evalAll
    refine .bind (h plan List.mem_cons_self) fun value hvalue => ?_
    exact .bind (ih fun other hother => h other (List.mem_cons_of_mem _ hother))
      fun values hvalues => .ok (.cons hvalue hvalues)

end Plan

/-- A record of as many values as fields. -/
theorem Value.newRecord_of_length {fields : Signature} {values : List Value}
    (h : values.length = fields.length) :
    Value.newRecord fields values = .record fields values := by
  unfold newRecord
  rw [h, Nat.sub_self, List.replicate_zero, List.append_nil, ← h, List.take_length]

/-- Values that belong to the types of the fields make a record of the record type. -/
theorem Value.belongs_newRecord {members : Members} {fields : Signature} {values : List Value}
    (h : List.Forall₂ (fun ty value => Value.Belongs members value ty)
      (fields.map Prod.snd) values) :
    (Value.newRecord fields values).Belongs members (.record fields) := by
  have hlength : values.length = fields.length := by
    rw [← h.length_eq, List.length_map]
  rw [newRecord_of_length hlength]
  refine ⟨.record rfl hlength ?_, .record ?_⟩
  · intro i field value hfield hvalue
    have hrel := rel_getElem?_of_forall₂ h i
    rw [List.getElem?_map, hfield, hvalue] at hrel
    cases hrel with
    | some hbelongs => exact hbelongs.1
  · intro value hvalue
    obtain ⟨ty, _, hbelongs⟩ := Returns.exists_of_mem_of_forall₂ h hvalue
    exact hbelongs.2

namespace Plan

variable {A : Assumptions} {listed : List String} {Γ : Typing} {plan : Plan} {services : Services}

/-- Every value of a well-typed plan without powers belongs to the type of the plan. -/
theorem Typed.returns_eval (h : Typed A listed Γ plan)
    (hhonest : ∀ ty run, A.honest ty run → HostFunction.Honest A.members ty run)
    (hpower : Operator.power ∉ plan.operators) {environment : Environment}
    (henvironment : environment.Meets A.members Γ) :
    Returns (plan.eval services environment) fun value => value.Belongs A.members plan.ty := by
  induction h generalizing environment with
  | const hscalar hvalue =>
    unfold eval
    exact .ok (.scalar hscalar hvalue)
  | @param Γ ty name hparam =>
    unfold eval
    split
    · exact .ok (henvironment name ty _ hparam ‹_›)
    · exact .error _
  | unary _ hfits ih =>
    unfold eval
    exact .bind (ih hpower henvironment) fun value hvalue => UnaryOp.returns_apply hfits hvalue
  | @binary Γ ty op left right _ _ hfits ihl ihr =>
    have hl := ihl (fun hop => hpower (List.mem_append_right _ (List.mem_append_left _ hop)))
      henvironment
    have hr := ihr (fun hop => hpower (List.mem_append_right _ (List.mem_append_right _ hop)))
      henvironment
    have hop : op ≠ .operator .power := by
      rintro rfl
      exact hpower (List.mem_append_left _ List.mem_cons_self)
    unfold eval
    refine .bind hl fun first hfirst => .bind (.self _) fun decided? hdecided => ?_
    cases decided? with
    | some result => exact .ok (BinaryOp.returns_decided? hfits _ hdecided result rfl)
    | none =>
      exact .bind hr fun second hsecond =>
        BinaryOp.returns_apply hop hfits hfirst hsecond hdecided
  | @cond Γ ty test yes no _ _ _ hty _ ihy ihn =>
    have hy := ihy (fun hop => hpower (List.mem_append_right _ (List.mem_append_left _ hop)))
      henvironment
    have hn := ihn (fun hop => hpower (List.mem_append_right _ (List.mem_append_right _ hop)))
      henvironment
    have hbranch : ∀ (branch : Plan) (value : Value), (ty = .any ∨ branch.ty = ty) →
        value.Belongs A.members branch.ty → value.Belongs A.members ty := by
      rintro branch value (rfl | rfl) hvalue
      · exact ⟨.any rfl, hvalue.2⟩
      · exact hvalue
    unfold eval
    refine .bind (.self _) fun value _ => .bind (.self _) fun chosen _ => ?_
    cases chosen with
    | true => exact hy.mono fun value hvalue => hbranch _ value (hty.imp_right And.left) hvalue
    | false => exact hn.mono fun value hvalue => hbranch _ value (hty.imp_right And.right) hvalue
  | bind _ _ hfits ihs ihb =>
    unfold eval
    refine .bind (ihs (fun hop => hpower (List.mem_append_left _ hop)) henvironment)
      fun value hvalue => Binder.returns_apply hfits hvalue fun item hitem => ?_
    exact ihb (fun hop => hpower (List.mem_append_right _ hop)) (henvironment.bind hitem)
  | @record Γ fields values _ htys ih =>
    unfold eval
    refine .bind (returns_evalAll fun plan hplan =>
      ih plan hplan (fun hop => hpower (mem_operatorsAll hplan hop)) henvironment)
      fun results hresults => .ok (Value.belongs_newRecord ?_)
    rw [← htys, List.forall₂_map_left_iff]
    exact hresults
  | call _ hcall _ _ =>
    unfold eval
    exact .bind (.self _) fun service? _ => .bind (.self _) fun values _ =>
      .mapError (hhonest _ _ hcall service? values)

end Plan

end TypedQuery
