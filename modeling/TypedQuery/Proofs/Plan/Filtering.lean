import TypedQuery.Proofs.Plan.Closed
import TypedQuery.Proofs.Plan.Comparing
import TypedQuery.Proofs.Value.Preservation

/-!
# Filters

What a filter keeps of a list goes item by item, and the items that it keeps stay in their order.
A test of a nullable or dynamic type is true or false of every item. One of the plain type of truth
values says nothing of the items on which it is `null`: neither the filter by it nor the filter by
its negation keeps them.
-/

namespace TypedQuery

/-- A computation in two parts has a result only if both parts have. -/
theorem exists_ok_of_bind {ε α β : Type} {first : Except ε α} {next : α → Except ε β} {result : β}
    (h : (first >>= next) = .ok result) :
    ∃ value, first = .ok value ∧ next value = .ok result := by
  cases first with
  | error cause => cases h
  | ok value => exact ⟨value, rfl, h⟩

section Lists

variable {ε α : Type} {test : α → Except ε Bool} {keeps : α → Bool} {items before result : List α}

/-- A filter whose tests all succeed keeps the items that pass, before those that were kept. -/
theorem filterAuxM_of_ok (h : ∀ item ∈ items, test item = .ok (keeps item)) (before : List α) :
    items.filterAuxM test before = .ok ((items.filter keeps).reverse ++ before) := by
  induction items generalizing before with
  | nil => rfl
  | cons item rest ih =>
    obtain ⟨hitem, hrest⟩ := List.forall_mem_cons.mp h
    unfold List.filterAuxM
    rw [hitem, List.filter_cons]
    refine (ih hrest _).trans ?_
    cases keeps item with
    | true => simp
    | false => rfl

/-- A filter that succeeds has succeeded in every test. -/
theorem exists_ok_of_filterAuxM (h : items.filterAuxM test before = .ok result) :
    ∀ item ∈ items, ∃ keep, test item = .ok keep := by
  induction items generalizing before with
  | nil => exact fun item hitem => absurd hitem List.not_mem_nil
  | cons first rest ih =>
    unfold List.filterAuxM at h
    cases hfirst : test first with
    | error cause =>
      rw [hfirst] at h
      cases h
    | ok keep =>
      rw [hfirst] at h
      exact List.forall_mem_cons.mpr ⟨⟨keep, hfirst⟩, ih h⟩

/-- A test that can tell of every item whether it is kept. -/
theorem filterM_of_ok (h : ∀ item ∈ items, test item = .ok (keeps item)) :
    items.filterM test = .ok (items.filter keeps) := by
  unfold List.filterM
  rw [filterAuxM_of_ok h]
  change Except.ok (((items.filter keeps).reverse ++ []).reverse) = _
  rw [List.append_nil, List.reverse_reverse]

/-- A filter comes to an end only if it can tell of every item whether it is kept. -/
theorem exists_ok_of_filterM (h : items.filterM test = .ok result) :
    ∀ item ∈ items, ∃ keep, test item = .ok keep := by
  unfold List.filterM at h
  cases hkept : items.filterAuxM test [] with
  | error cause =>
    rw [hkept] at h
    cases h
  | ok kept => exact exists_ok_of_filterAuxM hkept

end Lists

/-- What a test tells of an item by its value. A test of the plain type of truth values tells
nothing if its value is `null`. -/
def Ty.verdict (ty : Ty) (value : Value) : Option Bool :=
  if ty = .boolean ∧ value.isNull then none else some (value.same (.boolean true))

/-- A list of items, or `null` in the place of one. -/
def Value.ofSequence (items? : Option (List Value)) : Value :=
  items?.elim .null .list

namespace Plan

variable {plan predicate source : Plan} {services : Services} {environment other : Environment}
  {name : String} {items : List Value}

mutual

/-- The value of a plan depends on the values of its free parameters. -/
theorem eval_eq_of_free : {environment other : Environment} → (plan : Plan) →
    (∀ name ∈ plan.free, environment.lookup name = other.lookup name) →
      plan.eval services environment = plan.eval services other
  | _, _, .const _ _, _ => rfl
  | _, _, .param _ name, h => by
    unfold eval
    rw [h name (List.mem_singleton.mpr rfl)]
  | _, _, .unary _ _ operand, h => by
    unfold eval
    rw [eval_eq_of_free operand h]
  | _, _, .binary _ _ left right, h => by
    obtain ⟨hleft, hright⟩ := List.forall_mem_append.mp h
    unfold eval
    rw [eval_eq_of_free left hleft, eval_eq_of_free right hright]
  | _, _, .cond _ test yes no, h => by
    obtain ⟨htest, hbranches⟩ := List.forall_mem_append.mp h
    obtain ⟨hyes, hno⟩ := List.forall_mem_append.mp hbranches
    unfold eval
    rw [eval_eq_of_free test htest, eval_eq_of_free yes hyes, eval_eq_of_free no hno]
  | environment, other, .bind _ _ source name body, h => by
    obtain ⟨hsource, hinner⟩ := List.forall_mem_append.mp h
    -- inside of the binder its own parameter is not free
    have hbody : ∀ item : Value, body.eval services ((name, item) :: environment) =
        body.eval services ((name, item) :: other) := by
      refine fun item => eval_eq_of_free body fun reference hmem => ?_
      rw [List.lookup_cons, List.lookup_cons]
      by_cases hname : reference = name
      · rw [beq_iff_eq.mpr hname]
      · rw [beq_false_of_ne hname]
        exact hinner reference (List.mem_filter.mpr ⟨hmem, by simpa using hname⟩)
    unfold eval
    rw [eval_eq_of_free source hsource]
    simp only [hbody]
  | _, _, .record _ _ values, h => by
    unfold eval
    rw [evalAll_eq_of_free values h]
  | _, _, .call _ _ _ _ arguments, h => by
    unfold eval
    rw [evalAll_eq_of_free arguments h]

/-- Plans have the same values in environments that agree on their parameters. -/
theorem evalAll_eq_of_free : {environment other : Environment} → (plans : List Plan) →
    (∀ name ∈ freeAll plans, environment.lookup name = other.lookup name) →
      evalAll services environment plans = evalAll services other plans
  | _, _, [], _ => rfl
  | _, _, plan :: rest, h => by
    obtain ⟨hplan, hrest⟩ := List.forall_mem_append.mp h
    unfold evalAll
    rw [eval_eq_of_free plan hplan, evalAll_eq_of_free rest hrest]

end

/-- The value of a filter is that of its source where the predicate has the value true. -/
theorem eval_filter_of_ok {keeps : Value → Bool}
    (hsource : source.eval services environment = .ok (.list items))
    (hkeeps : ∀ item ∈ items, ∃ truth,
      predicate.eval services ((name, item) :: environment) = .ok truth ∧
        keeps item = truth.same (.boolean true)) :
    (source.filter name predicate).eval services environment =
      .ok (.list (items.filter keeps)) := by
  have htest : ∀ item ∈ items, (do
      return Value.same (← predicate.eval services ((name, item) :: environment)) (.boolean true)) =
      (.ok (keeps item) : Except RunFault Bool) := by
    intro item hitem
    obtain ⟨truth, htruth, heq⟩ := hkeeps item hitem
    rw [htruth, heq]
    rfl
  unfold filter eval
  rw [hsource]
  change (do
    return Value.list (← items.filterM fun item => do
      return Value.same (← predicate.eval services ((name, item) :: environment))
        (.boolean true))) = _
  rw [filterM_of_ok htest]
  rfl

/-- A filter of `null` is `null`. -/
theorem eval_filter_of_null (hsource : source.eval services environment = .ok .null) :
    (source.filter name predicate).eval services environment = .ok .null := by
  unfold filter eval
  rw [hsource]
  rfl

/-- A filter that has a value has a source that is `null` or a list, and a predicate that has a
value on every item. -/
theorem exists_of_eval_filter {kept : Value}
    (h : (source.filter name predicate).eval services environment = .ok kept) :
    source.eval services environment = .ok .null ∨
      ∃ items, source.eval services environment = .ok (.list items) ∧ ∀ item ∈ items, ∃ truth,
        predicate.eval services ((name, item) :: environment) = .ok truth := by
  unfold filter eval at h
  obtain ⟨value, hsource, happly⟩ := exists_ok_of_bind h
  unfold Binder.apply at happly
  obtain ⟨items?, hitems, hfilter⟩ := exists_ok_of_bind happly
  clear h happly
  rcases Value.eq_of_sequence hitems with ⟨items, rfl, rfl⟩ | ⟨rfl, rfl⟩
  · obtain ⟨kept, hkept, -⟩ := exists_ok_of_bind hfilter
    refine .inr ⟨items, hsource, fun item hitem => ?_⟩
    obtain ⟨keep, hkeep⟩ := exists_ok_of_filterM hkept item hitem
    obtain ⟨truth, htruth, -⟩ := exists_ok_of_bind hkeep
    exact ⟨truth, htruth⟩
  · exact .inl hsource

/-- The negation of a test has the opposite truth value, or `null` where the test has it. -/
theorem exists_of_eval_not {result : Value}
    (h : predicate.not.eval services environment = .ok result) :
    (∃ b, predicate.eval services environment = .ok (.boolean b) ∧ result = .boolean !b) ∨
      predicate.eval services environment = .ok .null ∧ result = .null := by
  unfold not eval at h
  obtain ⟨truth, htruth, h⟩ := exists_ok_of_bind h
  unfold UnaryOp.apply at h
  cases truth <;> cases h
  · exact .inr ⟨htruth, rfl⟩
  · exact .inl ⟨_, htruth, rfl⟩

/-- A test as a Boolean has the value of the test if that is of the plain type of truth values, and
tells whether it is true otherwise. -/
theorem exists_of_eval_asPredicate? {truth : Value} (h : plan.asPredicate? = some predicate)
    (htruth : predicate.eval services environment = .ok truth) :
    ∃ value, plan.eval services environment = .ok value ∧
      truth = if plan.ty = .boolean then value else .boolean (value.same (.boolean true)) := by
  rcases eq_of_asPredicate? h with ⟨hty, rfl⟩ | ⟨hty, ty, -, rfl⟩
  · exact ⟨truth, htruth, (if_pos hty).symm⟩
  · obtain ⟨value, hvalue⟩ : ∃ value, plan.eval services environment = .ok value := by
      unfold operator eval at htruth
      obtain ⟨value, hvalue, -⟩ := exists_ok_of_bind htruth
      exact ⟨value, hvalue⟩
    have hconstant : (const ty (.boolean true)).eval services environment =
        .ok (.boolean true) := rfl
    rw [eval_operator rfl hvalue hconstant] at htruth
    cases htruth
    refine ⟨value, hvalue, Eq.trans ?_ (if_neg hty).symm⟩
    exact congrArg Value.boolean (by simp)

/-- A test and its negation are true by the verdict of the test, and both are not if it has none. -/
theorem exists_verdict {truth opposite : Value} (h : plan.asPredicate? = some predicate)
    (htruth : predicate.eval services environment = .ok truth)
    (hopposite : predicate.not.eval services environment = .ok opposite) :
    ∃ value, plan.eval services environment = .ok value ∧
      decide (plan.ty.verdict value = some true) = truth.same (.boolean true) ∧
      decide (plan.ty.verdict value = some false) = opposite.same (.boolean true) := by
  obtain ⟨value, hvalue, heq⟩ := exists_of_eval_asPredicate? h htruth
  refine ⟨value, hvalue, ?_⟩
  unfold Ty.verdict
  rcases exists_of_eval_not hopposite with ⟨b, hb, rfl⟩ | ⟨hnull, rfl⟩
  · cases htruth.symm.trans hb
    by_cases hty : plan.ty = .boolean
    · rw [if_pos hty] at heq
      subst heq
      cases b <;> simp [hty, Value.isNull] <;> decide
    · rw [if_neg hty] at heq
      cases heq
      rw [if_neg fun h => hty h.1]
      cases value.same (.boolean true) <;> decide
  · cases htruth.symm.trans hnull
    by_cases hty : plan.ty = .boolean
    · rw [if_pos hty] at heq
      subst heq
      rw [if_pos ⟨hty, rfl⟩]
      decide
    · rw [if_neg hty] at heq
      cases heq

/-- The verdict of a test on an item, which the parameter of this name stands for. -/
def verdictOn (test : Plan) (services : Services) (environment : Environment) (name : String)
    (item : Value) : Option Bool :=
  match test.eval services ((name, item) :: environment) with
  | .ok value => test.ty.verdict value
  | .error _ => none

/-- The verdict of a test with a value is that of the value. -/
theorem verdictOn_of_ok {test : Plan} {item value : Value}
    (h : test.eval services ((name, item) :: environment) = .ok value) :
    test.verdictOn services environment name item = test.ty.verdict value := by
  unfold verdictOn
  rw [h]

/-- The reduction of a list is that of its items. -/
theorem eval_reduce {items? : Option (List Value)} (reduction : Reduction)
    (h : source.eval services environment = .ok (.ofSequence items?)) :
    (source.reduce reduction).eval services environment =
      .ok (items?.elim .null reduction.apply) := by
  unfold reduce eval
  rw [h]
  cases items? <;> rfl

/-- Two filters of a list, by a test and by its negation, keep the items on which the verdict of the
test is true and those on which it is false. The test has a value on every item. -/
theorem filters_divide {kept lost : Value} (h : plan.asPredicate? = some predicate)
    (hkept : (source.filter name predicate).eval services environment = .ok kept)
    (hlost : (source.filter name predicate.not).eval services environment = .ok lost) :
    ∃ items?, source.eval services environment = .ok (.ofSequence items?) ∧
      (∀ items ∈ items?, ∀ item ∈ items,
        ∃ value, plan.eval services ((name, item) :: environment) = .ok value) ∧
      kept = .ofSequence (items?.map fun items =>
        items.filter fun item => plan.verdictOn services environment name item = some true) ∧
      lost = .ofSequence (items?.map fun items =>
        items.filter fun item => plan.verdictOn services environment name item = some false) := by
  rcases exists_of_eval_filter hkept with hnull | ⟨items, hitems, htruths⟩
  · cases hkept.symm.trans (eval_filter_of_null hnull)
    cases hlost.symm.trans (eval_filter_of_null hnull)
    exact ⟨none, hnull, nofun, rfl, rfl⟩
  · obtain ⟨others, hothers, hopposites⟩ := (exists_of_eval_filter hlost).resolve_left
      fun hnull => nomatch hitems.symm.trans hnull
    cases hitems.symm.trans hothers
    have hverdicts : ∀ item ∈ items, ∃ value truth opposite,
        plan.eval services ((name, item) :: environment) = .ok value ∧
        predicate.eval services ((name, item) :: environment) = .ok truth ∧
        predicate.not.eval services ((name, item) :: environment) = .ok opposite ∧
        decide (plan.verdictOn services environment name item = some true) =
          truth.same (.boolean true) ∧
        decide (plan.verdictOn services environment name item = some false) =
          opposite.same (.boolean true) := by
      intro item hitem
      obtain ⟨truth, htruth⟩ := htruths item hitem
      obtain ⟨opposite, hopposite⟩ := hopposites item hitem
      obtain ⟨value, hvalue, hyes, hno⟩ := exists_verdict h htruth hopposite
      rw [← verdictOn_of_ok hvalue] at hyes hno
      exact ⟨value, truth, opposite, hvalue, htruth, hopposite, hyes, hno⟩
    refine ⟨some items, hitems, fun _ heq item hitem => ?_, ?_, ?_⟩
    · cases heq
      obtain ⟨value, -, -, hvalue, -⟩ := hverdicts item hitem
      exact ⟨value, hvalue⟩
    · refine Except.ok.inj (hkept.symm.trans (eval_filter_of_ok hitems fun item hitem => ?_))
      obtain ⟨-, truth, -, -, htruth, -, hyes, -⟩ := hverdicts item hitem
      exact ⟨truth, htruth, hyes⟩
    · refine Except.ok.inj (hlost.symm.trans (eval_filter_of_ok hitems fun item hitem => ?_))
      obtain ⟨-, -, opposite, -, -, hopposite, -, hno⟩ := hverdicts item hitem
      exact ⟨opposite, hopposite, hno⟩

end Plan

end TypedQuery
