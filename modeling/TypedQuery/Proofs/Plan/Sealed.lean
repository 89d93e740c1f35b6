import TypedQuery.Proofs.Plan.Closed

/-!
# Runs of closed plans

Only a reference to a parameter can find it unbound, and only a call can find its service
missing: operations on values never fail in these ways. A plan whose free parameters have values
and whose services are registered therefore ends with a value or with another failure.
-/

namespace TypedQuery

/-- The failures that come from what a query is run with, and not from the values in it. -/
def RunFault.isScope : RunFault → Bool
  | unbound _ | missingService _ => true
  | _ => false

/-- No parameter is unbound and no service is missing. -/
def Sealed {α : Type} (outcome : Except RunFault α) : Prop :=
  ∀ fault, outcome = .error fault → fault.isScope = false

namespace Sealed

variable {α β : Type}

/-- A result is not a failure. -/
theorem ok (result : α) : Sealed (.ok result) := nofun

/-- A result is not a failure, also within a computation. -/
theorem pure (result : α) : Sealed (Pure.pure result : Except RunFault α) := nofun

/-- Other failures are not of unbound parameters or missing services. -/
theorem error {fault : RunFault} (h : fault.isScope = false) :
    Sealed (.error fault : Except RunFault α) := by
  rintro _ ⟨⟩
  exact h

/-- What goes on with a sealed outcome is sealed if all that follows is. -/
theorem bind {first : Except RunFault α} {next : α → Except RunFault β} (hfirst : Sealed first)
    (hnext : ∀ result, Sealed (next result)) : Sealed (first >>= next) := by
  cases first with
  | error fault =>
    rintro _ ⟨⟩
    exact hfirst fault rfl
  | ok result => exact hnext result

/-- A list is run through with sealed outcomes if each item is. -/
theorem mapM {items : List α} {f : α → Except RunFault β} (h : ∀ item, Sealed (f item)) :
    Sealed (items.mapM f) := by
  induction items with
  | nil => exact pure []
  | cons item rest ih =>
    rw [List.mapM_cons]
    exact bind (h item) fun _ => bind ih fun _ => pure _

/-- Filtering what is left of a list is sealed if each test is. -/
theorem filterAuxM {items kept : List α} {f : α → Except RunFault Bool}
    (h : ∀ item, Sealed (f item)) : Sealed (items.filterAuxM f kept) := by
  induction items generalizing kept with
  | nil => exact pure _
  | cons item rest ih => exact bind (h item) fun _ => ih

/-- Filtering a list is sealed if each test is. -/
theorem filterM {items : List α} {f : α → Except RunFault Bool} (h : ∀ item, Sealed (f item)) :
    Sealed (items.filterM f) :=
  bind (filterAuxM h) fun _ => pure _

/-- Failures of host code are not of unbound parameters or missing services. -/
theorem host (outcome : Except String α) : Sealed (outcome.mapError .host) := by
  cases outcome with
  | error message => exact error rfl
  | ok result => exact ok result

end Sealed

namespace Value

/-- Taking a value for a condition is sealed. -/
theorem sealed_truth (value : Value) : Sealed value.truth := by
  cases value <;> first | exact .ok _ | exact .error rfl

/-- Taking a value for a list is sealed. -/
theorem sealed_sequence (value : Value) : Sealed value.sequence := by
  cases value <;> first | exact .ok _ | exact .error rfl

/-- Reading a member is sealed. -/
theorem sealed_readMember (name : String) (value : Value) : Sealed (value.readMember name) := by
  unfold readMember
  split
  · exact .ok _
  · exact .ok _
  · split
    · exact .ok _
    · exact .error rfl
  · exact .error rfl

/-- A conversion that may be missing is sealed. -/
theorem sealed_orFault (value : Value) (target : Ty) (result : Option Value) :
    Sealed (convertSome.orFault value target result) := by
  cases result with
  | none => exact .error rfl
  | some result => exact .ok _

/-- Converting a value other than `null` is sealed. -/
theorem sealed_convertSome (value : Value) (target : Ty) : Sealed (value.convertSome target) := by
  fun_induction convertSome value target <;>
    first | assumption | exact sealed_orFault _ _ _ | exact .ok _ | exact .error rfl

/-- Converting a value is sealed. -/
theorem sealed_convert (value : Value) (target : Ty) : Sealed (value.convert target) := by
  unfold convert
  split
  · exact .ok _
  · exact sealed_convertSome _ _

/-- Arithmetic on decimals is sealed. -/
theorem sealed_decimalOperation (op : Operator) (a b : Decimal) :
    Sealed (decimalOperation op a b) := by
  unfold decimalOperation
  extract_lets finish
  have hfinish : ∀ result, Sealed (finish result) := by
    intro result
    cases result with
    | none => exact .error rfl
    | some d => exact .ok _
  split
  · exact hfinish _
  · exact hfinish _
  · exact hfinish _
  · split
    · exact .error rfl
    · exact hfinish _
  · split
    · exact .error rfl
    · exact hfinish _
  · exact hfinish _
  · exact hfinish none

/-- Powers of integers are sealed. -/
theorem sealed_integerPower (a b : Int) (kind : IntKind) : Sealed (integerPower a b kind) := by
  unfold integerPower
  split
  · split
    · exact sealed_decimalOperation _ _ _
    · exact .error rfl
  · split
    · exact .ok _
    · exact .error rfl

/-- Arithmetic on integers is sealed. -/
theorem sealed_integerOperation (op : Operator) (a b : Int) (kind : IntKind) :
    Sealed (integerOperation op a b kind) := by
  unfold integerOperation
  extract_lets finish
  have hfinish : ∀ result, Sealed (finish result) := by
    intro result
    unfold finish
    split
    · exact .ok _
    · exact .error rfl
  split
  · exact hfinish _
  · exact hfinish _
  · exact hfinish _
  · split
    · exact .error rfl
    · exact hfinish _
  · split
    · exact .error rfl
    · exact hfinish _
  · exact sealed_integerPower _ _ _
  · exact hfinish none

/-- Arithmetic on values other than `null` is sealed. -/
theorem sealed_operate (op : Operator) (a b : Value) (ty : Ty) : Sealed (operate op a b ty) := by
  unfold operate
  dsimp only
  split
  · split
    · exact sealed_integerOperation _ _ _ _
    · exact .error rfl
  · split
    · split
      · exact .ok _
      · exact .error rfl
    · split
      · exact sealed_decimalOperation _ _ _
      · exact .error rfl

/-- Arithmetic on values is sealed. -/
theorem sealed_arithmetic (op : Operator) (a b : Value) (ty : Ty) :
    Sealed (arithmetic op a b ty) := by
  unfold arithmetic
  split
  · exact .ok _
  · exact .ok _
  · split
    · exact .ok _
    · exact sealed_operate _ _ _ _
  · exact sealed_operate _ _ _ _

end Value

/-- Tests of texts are sealed. -/
theorem TextTest.sealed_apply (test : TextTest) (target argument : Value) :
    Sealed (test.apply target argument) := by
  unfold apply
  split
  · exact .ok _
  · exact .ok _
  · exact .ok _
  · exact .error rfl

/-- The count of a part of a list is sealed. -/
theorem sealed_countOf (length : Nat) (count : Value) : Sealed (countOf length count) := by
  unfold countOf
  split
  · exact .ok _
  · exact .error rfl

/-- The choice of a branch is sealed. -/
theorem sealed_chooses (test : Value) : Sealed (chooses test) := by
  unfold chooses
  split
  · exact .ok _
  · exact .ok _
  · exact .error rfl

/-- An operation on one value fails for the sake of the value only. -/
theorem UnaryOp.sealed_apply (ty : Ty) (op : UnaryOp) (operand : Value) :
    Sealed (op.apply ty operand) := by
  cases op with
  | member name => exact operand.sealed_readMember name
  | not =>
    unfold apply
    cases operand <;> first | exact .ok _ | exact .error rfl
  | convert => exact operand.sealed_convert ty
  | inSet set => exact .ok _
  | distinct | reduce _ =>
    refine .bind operand.sealed_sequence fun items? => ?_
    cases items? with
    | none => exact .pure _
    | some items => exact .pure _

/-- Operators on values are sealed. -/
theorem Operator.sealed_apply (ty : Ty) (op : Operator) (left right : Value) :
    Sealed (op.apply ty left right) := by
  unfold apply
  split
  · exact .ok _
  · split
    · split
      · exact .ok _
      · split
        · exact .ok _
        · exact .error rfl
    · exact Value.sealed_arithmetic _ _ _ _

/-- What the left operand alone decides is sealed. -/
theorem BinaryOp.sealed_decided? (op : BinaryOp) (left : Value) : Sealed (op.decided? left) := by
  unfold decided?
  split
  · exact .bind left.sealed_truth fun _ => .pure _
  · exact .bind left.sealed_truth fun _ => .pure _
  · refine .bind left.sealed_sequence fun items? => ?_
    cases items? <;> exact .pure _
  · refine .bind left.sealed_sequence fun items? => ?_
    cases items? <;> exact .pure _
  · exact .ok _

/-- An operation on two values fails for the sake of the values only. -/
theorem BinaryOp.sealed_apply (ty : Ty) (op : BinaryOp) (left right : Value) :
    Sealed (op.apply ty left right) := by
  unfold apply
  split
  · exact .bind right.sealed_truth fun _ => .pure _
  · exact .bind right.sealed_truth fun _ => .pure _
  · exact Operator.sealed_apply _ _ _ _
  · split
    · exact .ok _
    · exact .ok _
    · exact .ok _
    · exact .error rfl
  · exact TextTest.sealed_apply _ _ _
  · exact .bind left.sealed_sequence fun _ => .bind (sealed_countOf _ _) fun _ => .pure _
  · exact .bind left.sealed_sequence fun _ => .bind (sealed_countOf _ _) fun _ => .pure _

/-- A binder fails as its body does, or for the sake of its source. -/
theorem Binder.sealed_apply (binder : Binder) (source : Value)
    {body : Value → Except RunFault Value}
    (hbody : ∀ item, Sealed (body item)) : Sealed (binder.apply source body) := by
  cases binder with
  | given =>
    unfold apply
    dsimp only
    split
    · exact .ok _
    · exact hbody source
  | filter =>
    refine .bind source.sealed_sequence fun items? => ?_
    cases items? with
    | none => exact .pure _
    | some items =>
      exact .bind (.filterM fun item => .bind (hbody item) fun _ => .pure _) fun _ => .pure _
  | project =>
    refine .bind source.sealed_sequence fun items? => ?_
    cases items? with
    | none => exact .pure _
    | some items => exact .bind (.mapM hbody) fun _ => .pure _
  | orderBy descending =>
    refine .bind source.sealed_sequence fun items? => ?_
    cases items? with
    | none => exact .pure _
    | some items =>
      exact .bind (.mapM fun item => .bind (hbody item) fun _ => .pure _) fun _ => .pure _

/-- Looking up a service that is registered is sealed. -/
theorem Services.sealed_resolve? {services : Services} {service? : Option String}
    (h : ∀ service ∈ service?, Entries.contains services service = true) :
    Sealed (services.resolve? service?) := by
  unfold resolve?
  split
  · exact .ok _
  · rename_i service
    obtain ⟨value, hvalue⟩ := Option.isSome_iff_exists.mp (h service rfl)
    rw [hvalue]
    exact .ok _

namespace Plan

mutual

/-- A plan whose free parameters have values and whose services are registered never finds a
parameter unbound or a service missing. -/
theorem sealed_eval {services : Services} {environment : Environment} :
    (plan : Plan) → (∀ name ∈ plan.free, (environment.lookup name).isSome = true) →
      (∀ service ∈ plan.needed, Entries.contains services service = true) →
      Sealed (plan.eval services environment)
  | const _ value, _, _ => by
    unfold eval
    exact .ok value
  | param _ name, hfree, _ => by
    obtain ⟨value, hvalue⟩ := Option.isSome_iff_exists.mp (hfree name List.mem_cons_self)
    unfold eval
    rw [hvalue]
    exact .ok value
  | unary ty op operand, hfree, hneeded => by
    unfold eval
    exact .bind (sealed_eval operand hfree hneeded) fun value => op.sealed_apply ty value
  | binary ty op left right, hfree, hneeded => by
    have hl := sealed_eval left (fun name h => hfree name (List.mem_append_left _ h))
      fun service h => hneeded service (List.mem_append_left _ h)
    have hr := sealed_eval right (fun name h => hfree name (List.mem_append_right _ h))
      fun service h => hneeded service (List.mem_append_right _ h)
    unfold eval
    refine .bind hl fun first => .bind (op.sealed_decided? first) fun decided? => ?_
    cases decided? with
    | some result => exact .pure result
    | none => exact .bind hr fun second => op.sealed_apply ty first second
  | cond _ test yes no, hfree, hneeded => by
    have ht := sealed_eval test (fun name h => hfree name (List.mem_append_left _ h))
      fun service h => hneeded service (List.mem_append_left _ h)
    have hy := sealed_eval yes
      (fun name h => hfree name (List.mem_append_right _ (List.mem_append_left _ h)))
      fun service h => hneeded service (List.mem_append_right _ (List.mem_append_left _ h))
    have hn := sealed_eval no
      (fun name h => hfree name (List.mem_append_right _ (List.mem_append_right _ h)))
      fun service h => hneeded service (List.mem_append_right _ (List.mem_append_right _ h))
    unfold eval
    refine .bind ht fun value => .bind (sealed_chooses value) fun chosen => ?_
    cases chosen with
    | true => exact hy
    | false => exact hn
  | bind _ binder source name body, hfree, hneeded => by
    have hs := sealed_eval source (fun name h => hfree name (List.mem_append_left _ h))
      fun service h => hneeded service (List.mem_append_left _ h)
    unfold eval
    refine .bind hs fun value => binder.sealed_apply value fun item => ?_
    refine sealed_eval body ?_ fun service h => hneeded service (List.mem_append_right _ h)
    intro other hother
    by_cases hname : other = name
    · rw [hname, List.lookup_cons_self]
      rfl
    · have hlookup : ((name, item) :: environment).lookup other = environment.lookup other := by
        rw [List.lookup_cons, beq_false_of_ne hname]
      rw [hlookup]
      exact hfree other (List.mem_append_right _
        (List.mem_filter.mpr ⟨hother, by simpa using hname⟩))
  | record _ _ values, hfree, hneeded => by
    unfold eval
    exact .bind (sealed_evalAll values hfree hneeded) fun _ => .pure _
  | call _ _ service? run arguments, hfree, hneeded => by
    unfold eval
    refine .bind (Services.sealed_resolve? fun service h => hneeded service
      (List.mem_append_left _ (Option.mem_toList.mpr h))) fun _ => ?_
    refine .bind (sealed_evalAll arguments hfree fun service h =>
      hneeded service (List.mem_append_right _ h)) fun _ => .host _

/-- Evaluating plans is sealed where their parameters are bound and their services are registered.
-/
theorem sealed_evalAll {services : Services} {environment : Environment} :
    (plans : List Plan) → (∀ name ∈ freeAll plans, (environment.lookup name).isSome = true) →
      (∀ service ∈ neededAll plans, Entries.contains services service = true) →
      Sealed (evalAll services environment plans)
  | [], _, _ => by
    unfold evalAll
    exact .ok []
  | plan :: rest, hfree, hneeded => by
    have hp := sealed_eval plan (fun name h => hfree name (List.mem_append_left _ h))
      fun service h => hneeded service (List.mem_append_left _ h)
    have hr := sealed_evalAll rest (fun name h => hfree name (List.mem_append_right _ h))
      fun service h => hneeded service (List.mem_append_right _ h)
    unfold evalAll
    exact .bind hp fun _ => .bind hr fun _ => .pure _

end

end Plan

end TypedQuery
