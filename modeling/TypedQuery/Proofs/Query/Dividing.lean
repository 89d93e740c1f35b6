import TypedQuery.Proofs.Query.Joining
import TypedQuery.Proofs.Splicing.Calls

/-!
# A test and its negation

`s.where(p)` and `s.where(not p)` divide what `s` gives: each item is kept by one of them, in its
place, unless `p` tells nothing of the item. That is so of the items on which a test of the plain
type of truth values is `null`. Both drop these, and neither count takes them in.
-/

namespace TypedQuery

open Halting

/-- The number of items of a list, or `null` in the place of one. -/
def Value.counted (items? : Option (List Value)) : Value :=
  items?.elim .null Reduction.count.apply

/-- Two counts are added as natural numbers while an `Int32` can hold the sum. -/
theorem Value.arithmetic_add_ofNat {m n : Nat} (h : m + n < countLimit) :
    arithmetic .add (.int (.ofNat m)) (.int (.ofNat n)) (.int .i32) =
      .ok (.int (.ofNat (m + n))) := by
  have hlimit : m + n < 2 ^ 31 := h
  have hfits : IntKind.fits .i32 ((m : Int) + n) = true := by
    refine IntKind.fits_iff.mpr ?_
    change -(2 ^ 31 : Int) ≤ (m : Int) + n ∧ (m : Int) + n ≤ 2 ^ 31 - 1
    omega
  have hwide : IntKind.fits .i64 ((m : Int) + n) = true := by
    refine IntKind.fits_iff.mpr ?_
    change -(2 ^ 63 : Int) ≤ (m : Int) + n ∧ (m : Int) + n ≤ 2 ^ 63 - 1
    omega
  change integerOperation .add (Int64.ofNat m).toInt (Int64.ofNat n).toInt .i32 = _
  rw [Int64.toInt_ofNat_of_lt (by omega), Int64.toInt_ofNat_of_lt (by omega)]
  unfold integerOperation ofInt?
  simp only [Option.bind_some, hfits, hwide]
  rfl

/-- The items with a verdict are those on which it is true and those on which it is false. -/
theorem length_filter_verdict {α : Type} (items : List α) (verdict : α → Option Bool) :
    (items.filter fun item => verdict item = some true).length +
        (items.filter fun item => verdict item = some false).length =
      (items.filter fun item => (verdict item).isSome).length := by
  induction items with
  | nil => rfl
  | cons item rest ih =>
    rcases hverdict : verdict item with _ | _ | _ <;> simp [hverdict] <;> omega

/-- The counts of the items on which the verdict is true and of those on which it is false add up to
the count of the items with a verdict. -/
theorem Value.arithmetic_add_counted {items? : Option (List Value)} (verdict : Value → Option Bool)
    (h : ∀ items ∈ items?, items.length < countLimit) :
    arithmetic .add
        (.counted (items?.map fun items => items.filter fun item => verdict item = some true))
        (.counted (items?.map fun items => items.filter fun item => verdict item = some false))
        (.int .i32) =
      .ok (.counted (items?.map fun items => items.filter fun item => (verdict item).isSome)) := by
  cases items? with
  | none => rfl
  | some items =>
    have hle := List.length_filter_le (fun item => (verdict item).isSome) items
    have hsum := length_filter_verdict items verdict
    have hshort := h items rfl
    refine (arithmetic_add_ofNat ?_).trans ?_
    · dsimp only
      omega
    · rw [hsum]
      rfl

/-- The count of a list that a query gives. -/
theorem Query.run_count {node : Node} {contextTy : Ty} {services : Services} {store : Value}
    {items? : Option (List Value)}
    (h : (ofNode node contextTy).run services store = .ok (.ofSequence items?)) :
    (ofNode (node.map fun plan => plan.reduce .count) contextTy).run services store =
      .ok (.counted items?) := by
  obtain ⟨hservices, hvalue⟩ := run_ofNode_eq_ok.mp h
  exact run_ofNode_eq_ok.mpr ⟨hservices, Plan.eval_reduce .count hvalue⟩

namespace Method

variable {receiver inner node test : Node} {name : String} {argument : CallArgument}
  {start final : Session} {predicate : Plan}

/-- A filter by a test. -/
theorem filtered_eq_ok :
    filtered ⟨name, receiver, inner, [argument]⟩ start = .ok node final ↔
      ∃ test predicate, argument.compile inner start = .ok test final ∧
        test.plan.asPredicate? = some predicate ∧
        node = receiver.join test (receiver.plan.filter
          (MethodCall.elementName ⟨name, receiver, inner, [argument]⟩) predicate) := by
  constructor
  · intro h
    obtain ⟨tested, between, htested, hend⟩ := bind_eq_ok.mp h
    obtain ⟨rfl, rfl⟩ := pure_eq_ok.mp hend
    obtain ⟨test, between, htest, hpredicate⟩ := bind_eq_ok.mp htested
    cases heq : test.plan.asPredicate? with
    | none =>
      rw [heq] at hpredicate
      cases hpredicate
    | some predicate =>
      rw [heq] at hpredicate
      obtain ⟨rfl, rfl⟩ := pure_eq_ok.mp hpredicate
      exact ⟨test, predicate, htest, heq, rfl⟩
  · rintro ⟨test, predicate, htest, heq, rfl⟩
    refine bind_eq_ok.mpr ⟨{ test with plan := predicate }, final, ?_, rfl⟩
    refine bind_eq_ok.mpr ⟨test, final, htest, ?_⟩
    dsimp only
    rw [heq]
    rfl

/-- The negation of a test. -/
theorem not_of_ok (htest : argument.compile inner start = .ok test final)
    (hpredicate : test.plan.asPredicate? = some predicate) :
    not ⟨name, receiver, inner, [argument]⟩ start =
      .ok { test with plan := predicate.not } final := by
  refine bind_eq_ok.mpr ⟨test, final, htest, ?_⟩
  rw [hpredicate]
  rfl

end Method

namespace Scope

variable {scope : Scope} {contextTy element : Ty} {s p : Expr} {arguments : List Expr}
  {session between final : Session} {list node test : Node} {method : Method} {name : String}
  {predicate : Plan}

/-- The parameter that stands for an item of a list. -/
def itemNode (element : Ty) (session : Session) : Node :=
  .ofPlan (.param element (parameterName session.parameters))

/-- The session in which this parameter has its name. -/
def inside (session : Session) : Session :=
  { session with parameters := session.parameters + 1 }

/-- Applied to a list, a method whose arguments are compiled on items is built on a parameter. -/
theorem apply_element {caller : Node} {given : List CallArgument}
    (helement : method.context = .element) (hty : list.ty = .list element) :
    method.apply list caller given session =
      method.build ⟨method.name, list, itemNode element session, given⟩ (inside session) := by
  unfold Method.apply
  rw [helement, hty]
  rfl

/-- A method on the items of a list is built on the list, its arguments on an item. -/
theorem compile_call (hfind : scope.methods.find? name = some method)
    (helement : method.context = .element)
    (hcount : method.checkArity arguments.length = .ok ())
    (hlist : (scope.compile (context contextTy) s) session = .ok list between)
    (hty : list.ty = .list element) :
    (scope.compile (context contextTy) (.call s name arguments)) session =
      method.build ⟨method.name, list, itemNode element between,
        scope.callArguments .parameter (scope.fieldCompiler .parameter) arguments⟩
          (inside between) := by
  have hsequence : list.ty.isSequence = true := by
    rw [hty]
    rfl
  unfold compile compileExpr
  refine (bind_of_ok hlist).trans ?_
  unfold MethodLibrary.call
  rw [hfind]
  dsimp only
  rw [length_callArguments, hcount, hsequence, Bool.not_true, Bool.and_false,
    if_neg Bool.false_ne_true]
  exact apply_element helement hty

/-- The negation of what is a test in a context. -/
theorem compile_negation (hmethods : scope.methods = .standard) {inner : Node}
    (htest : (scope.compile inner p) session = .ok test final)
    (hpredicate : test.plan.asPredicate? = some predicate) :
    (scope.compile inner p.negation) session = .ok { test with plan := predicate.not } final := by
  unfold compile Expr.negation compileExpr callArguments callArguments
  rw [hmethods]
  exact Method.not_of_ok htest hpredicate

/-- The method `count` of the standard library reduces a list. -/
theorem find?_count (hmethods : scope.methods = .standard) : scope.methods.find? "count" =
    some ⟨"count", .range 0 (some 1), .element, false, Method.reduce .count⟩ := by
  rw [hmethods]
  rfl

section Tests

variable (hmethods : scope.methods = .standard)
  (hlist : (scope.compile (context contextTy) s) session = .ok list between)
  (hty : list.ty = .list element)

include hmethods hlist hty

/-- The method `where` filters a list by a test of its items. -/
theorem compile_where :
    (scope.compile (context contextTy) (.call s "where" [p])) session = .ok node final ↔
      ∃ test predicate,
        (scope.compile (itemNode element between) p) (inside between) = .ok test final ∧
        test.plan.asPredicate? = some predicate ∧
        node = list.join test (list.plan.filter (parameterName between.parameters) predicate) := by
  have hfind : scope.methods.find? "where" =
      some ⟨"where", .exactly 1, .element, false, Method.filtered⟩ := by
    rw [hmethods]
    rfl
  rw [compile_call hfind rfl rfl hlist hty]
  unfold callArguments callArguments
  exact Method.filtered_eq_ok

/-- The method `count` counts what `where` keeps. -/
theorem compile_count
    (h : (scope.compile (context contextTy) (.call s "where" [p])) session = .ok node final) :
    (scope.compile (context contextTy) (.call s "count" [p])) session =
      .ok (node.map fun plan => plan.reduce .count) final := by
  obtain ⟨test, predicate, htest, hpredicate, rfl⟩ := (compile_where hmethods hlist hty).mp h
  rw [compile_call (find?_count hmethods) rfl rfl hlist hty]
  unfold callArguments callArguments
  refine bind_eq_ok.mpr ⟨_, final, Method.filtered_eq_ok.mpr ⟨test, predicate, htest, hpredicate,
    rfl⟩, rfl⟩

/-- Without a test, `count` counts the list. -/
theorem compile_count_all :
    (scope.compile (context contextTy) (.call s "count" [])) session =
      .ok (list.map fun plan => plan.reduce .count) (inside between) := by
  rw [compile_call (find?_count hmethods) rfl rfl hlist hty]
  unfold callArguments
  rfl

end Tests

/-- By the verdicts of a test on the items of a list, what the filters by the test and by its
negation give, and what the counts give. There are no items if the list is `null`. -/
structure Divides (scope : Scope) (contextTy : Ty) (session : Session) (services : Services)
    (store : Value) (s p : Expr) (items? : Option (List Value)) (verdict : Value → Option Bool) :
    Prop where
  kept : scope.Gives contextTy session services store (.call s "where" [p])
    (.ofSequence (items?.map fun items => items.filter fun item => verdict item = some true))
  lost : scope.Gives contextTy session services store (.call s "where" [p.negation])
    (.ofSequence (items?.map fun items => items.filter fun item => verdict item = some false))
  keptCount : scope.Gives contextTy session services store (.call s "count" [p])
    (.counted (items?.map fun items => items.filter fun item => verdict item = some true))
  lostCount : scope.Gives contextTy session services store (.call s "count" [p.negation])
    (.counted (items?.map fun items => items.filter fun item => verdict item = some false))
  sum : (∀ items ∈ items?, items.length < Value.countLimit) →
    scope.Gives contextTy session services store
      (.binary .add (.call s "count" [p]) (.call s "count" [p.negation]))
      (.counted (items?.map fun items => items.filter fun item => (verdict item).isSome))

/-- A test and its negation divide the items on which the test has a verdict. -/
theorem where_divides {services : Services} {store x y : Value} {kept : Node}
    (hmethods : scope.methods = .standard)
    (hlist : (scope.compile (context contextTy) s) session = .ok list between)
    (hsequence : list.ty.isSequence = true)
    (hwhere : (scope.compile (context contextTy) (.call s "where" [p])) session = .ok kept final)
    (hkept : (Query.ofNode kept contextTy).run services store = .ok x)
    (hlost : scope.Gives contextTy session services store (.call s "where" [p.negation]) y) :
    ∃ element test items?, list.ty = .list element ∧
      (scope.compile (itemNode element between) p) (inside between) = .ok test final ∧
      list.plan.eval services (Query.environmentOf kept store) = .ok (.ofSequence items?) ∧
      (∀ items ∈ items?, ∀ item ∈ items, ∃ value, test.plan.eval services
        ((parameterName between.parameters, item) :: Query.environmentOf kept store) =
          .ok value) ∧
      scope.Divides contextTy session services store s p items?
        (test.plan.verdictOn services (Query.environmentOf kept store)
          (parameterName between.parameters)) ∧
      ((Query.ofNode list contextTy).SharedBy (.ofNode kept contextTy) →
        scope.Gives contextTy session services store s (.ofSequence items?) ∧
        scope.Gives contextTy session services store (.call s "count" []) (.counted items?)) := by
  have hsteady : scope.methods.Steady := hmethods ▸ MethodLibrary.steady_standard
  obtain ⟨element, hty⟩ := Ty.eq_list_of_isSequence hsequence
  obtain ⟨test, predicate, htest, hpredicate, rfl⟩ := (compile_where hmethods hlist hty).mp hwhere
  have hwhereNot := (compile_where hmethods hlist hty).mpr
    ⟨_, predicate.not, compile_negation hmethods htest hpredicate, rfl, rfl⟩
  obtain ⟨_, _, hnode, hrun⟩ := hlost
  cases hwhereNot.symm.trans hnode
  obtain ⟨hservices, hx⟩ := Query.run_ofNode_eq_ok.mp hkept
  -- A test and its negation have the same variables, so both filters run in one environment.
  obtain ⟨items?, hsource, hvalues, rfl, rfl⟩ :=
    Plan.filters_divide hpredicate hx (Query.run_ofNode_eq_ok.mp hrun).2
  have hcount := compile_count hmethods hlist hty hwhere
  have hcountNot := compile_count hmethods hlist hty hwhereNot
  refine ⟨element, test, items?, hty, htest, hsource, hvalues, ?_, fun hshared => ?_⟩
  · refine ⟨⟨_, _, hwhere, hkept⟩, ⟨_, _, hwhereNot, hrun⟩, ⟨_, _, hcount, Query.run_count hkept⟩,
      ⟨_, _, hcountNot, Query.run_count hrun⟩, fun hlimit => ?_⟩
    exact gives_add hsteady hcount hcountNot rfl rfl rfl (Query.run_count hkept)
      (Query.run_count hrun) (Value.arithmetic_add_counted _ hlimit)
  · have hgives : (Query.ofNode list contextTy).run services store = .ok (.ofSequence items?) := by
      refine Query.run_ofNode_eq_ok.mpr ⟨fun service hservice => ?_, ?_⟩
      · exact hservices service (Node.mem_foldl_addService.mpr (.inl hservice))
      · rw [← Query.eval_of_sharedBy (sound_of_compile hsteady.sound hlist) hshared]
        exact hsource
    exact ⟨⟨_, _, hlist, hgives⟩, ⟨_, _, compile_count_all hmethods hlist hty,
      Query.run_count hgives⟩⟩

end Scope

/-- A host with a list of people who are active or not. -/
def crewHost : Host where
  schema := .ofParts "Query" [] [
    .ofFields "Query" none [.ofMember "people" (.list (.object "Person"))],
    .ofFields "Person" none [.ofMember "active" .boolean]] []
  methods := .standard
  depth := 1

/-- A person of the host. -/
def crewMember (active : Value) : Value :=
  .object "Person" [("active", active)]

/-- A context of the host. -/
def crewContext (members : List Value) : Value :=
  .object "Query" [("people", .list members)]

/-- What an expression gives of people. -/
def CrewGives (members : List Value) (expr : Expr) (value : Value) : Prop :=
  (crewHost.scope []).Gives (.object "Query") default [] (crewContext members) expr value

namespace Scope

/-- Of three people, one is kept by the test, one by its negation, and one by neither. -/
theorem where_divides_crew :
    let members := [crewMember (.boolean true), crewMember .null, crewMember (.boolean false)]
    ∃ verdict, members.map verdict = [some true, none, some false] ∧
      (crewHost.scope []).Divides (.object "Query") default [] (crewContext members)
        (.identifier "people") (.identifier "active") (some members) verdict := by
  intro members
  have hlist : ((crewHost.scope []).compile (context (.object "Query")) (.identifier "people"))
      default = .ok _ _ := rfl
  have hwhere : ((crewHost.scope []).compile (context (.object "Query"))
      (.call (.identifier "people") "where" [.identifier "active"])) default = .ok _ _ := rfl
  have hlost : CrewGives members (.call (.identifier "people") "where"
      [(Expr.identifier "active").negation]) (.list [crewMember (.boolean false)]) :=
    ⟨_, _, rfl, rfl⟩
  obtain ⟨_, _, items?, hty, htest, hitems, -, hdivides, -⟩ :=
    where_divides rfl hlist rfl hwhere rfl hlost
  cases hty
  cases htest
  cases items? with
  | none => cases hitems
  | some items =>
    cases hitems
    exact ⟨_, rfl, hdivides⟩

/-- A person of whom a test is `null` is kept neither by the test nor by its negation, and the
counts do not add up to the count of all. -/
theorem where_drops_null :
    let members := [crewMember (.boolean true), crewMember .null]
    CrewGives members (.identifier "people") (.list members) ∧
      CrewGives members (.call (.identifier "people") "where" [.identifier "active"])
        (.list [crewMember (.boolean true)]) ∧
      CrewGives members (.call (.identifier "people") "where"
        [(Expr.identifier "active").negation]) (.list []) ∧
      ¬ ∃ total, CrewGives members (.call (.identifier "people") "count" []) total ∧
        CrewGives members (.binary .add
          (.call (.identifier "people") "count" [.identifier "active"])
          (.call (.identifier "people") "count" [(Expr.identifier "active").negation])) total := by
  intro members
  refine ⟨⟨_, _, rfl, rfl⟩, ⟨_, _, rfl, rfl⟩, ⟨_, _, rfl, rfl⟩, ?_⟩
  rintro ⟨total, hall, hsum⟩
  have htwo : total = .int 2 := hall.unique ⟨_, _, rfl, rfl⟩
  have hone : total = .int 1 := hsum.unique ⟨_, _, rfl, rfl⟩
  cases htwo.symm.trans hone

end Scope

end TypedQuery
