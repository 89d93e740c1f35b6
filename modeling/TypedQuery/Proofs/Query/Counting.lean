import TypedQuery.Proofs.Query.Items
import TypedQuery.Proofs.Query.Predicates
import TypedQuery.Proofs.Splicing.Reducing

/-!
# A count is a count

On a list, `count` gives the number of its items, or of those of which a test is true. On anything
else the count is made of the nearest list of the chain, and the chain above it refuses a number:
there is nothing to count. One link does not refuse it. A call of a service takes the number in the
place of the list that was its first argument, and the whole has the type of the field of the
service.
-/

namespace TypedQuery

open Halting

/-- Different lists, or a list and `null`, are different values. -/
theorem Value.ofSequence_injective : Function.Injective Value.ofSequence := by
  intro first second h
  cases first <;> cases second <;> cases h <;> rfl

namespace Plan

variable {plan predicate source : Plan} {services : Services} {environment : Environment}
  {name : String} {value : Value}

/-- A count that has a value is that of a list, or `null` in the place of one. -/
theorem exists_of_eval_count
    (h : (source.reduce .count).eval services environment = .ok value) :
    ∃ items?, source.eval services environment = .ok (.ofSequence items?) ∧
      value = .counted items? := by
  have hsource : ∃ found, source.eval services environment = .ok found ∧
      UnaryOp.apply (reducedTy source.ty .count) (.reduce .count) found = .ok value := by
    unfold reduce eval at h
    exact exists_ok_of_bind h
  obtain ⟨found, hfound, happly⟩ := hsource
  unfold UnaryOp.apply at happly
  obtain ⟨items?, hitems, hreduced⟩ := exists_ok_of_bind happly
  rcases Value.eq_of_sequence hitems with ⟨items, rfl, rfl⟩ | ⟨rfl, rfl⟩
  · cases hreduced
    exact ⟨some items, hfound, rfl⟩
  · cases hreduced
    exact ⟨none, hfound, rfl⟩

/-- A test is true of an item, which the parameter of this name stands for. -/
def holdsOn (test : Plan) (services : Services) (environment : Environment) (name : String)
    (item : Value) : Bool :=
  match test.eval services ((name, item) :: environment) with
  | .ok value => value.same (.boolean true)
  | .error _ => false

/-- A filter that has a value keeps the items of which the test is true. The test has a value on
every item. -/
theorem exists_of_eval_filter_asPredicate? {kept : Value} (h : plan.asPredicate? = some predicate)
    (hkept : (source.filter name predicate).eval services environment = .ok kept) :
    ∃ items?, source.eval services environment = .ok (.ofSequence items?) ∧
      (∀ items ∈ items?, ∀ item ∈ items, ∃ value,
        plan.eval services ((name, item) :: environment) = .ok value ∧
          plan.holdsOn services environment name item = value.same (.boolean true)) ∧
      kept = .ofSequence (items?.map (List.filter (plan.holdsOn services environment name))) := by
  rcases exists_of_eval_filter hkept with hnull | ⟨items, hitems, htruths⟩
  · cases hkept.symm.trans (eval_filter_of_null hnull)
    exact ⟨none, hnull, nofun, rfl⟩
  · have hvalues : ∀ item ∈ items, ∃ value truth,
        plan.eval services ((name, item) :: environment) = .ok value ∧
        predicate.eval services ((name, item) :: environment) = .ok truth ∧
        plan.holdsOn services environment name item = value.same (.boolean true) ∧
        truth.same (.boolean true) = value.same (.boolean true) := by
      intro item hitem
      obtain ⟨truth, htruth⟩ := htruths item hitem
      obtain ⟨value, hvalue, heq⟩ := exists_of_eval_asPredicate? h htruth
      refine ⟨value, truth, hvalue, htruth, ?_, ?_⟩
      · unfold holdsOn
        rw [hvalue]
      · by_cases hty : plan.ty = .boolean
        · rw [heq, if_pos hty]
        · rw [heq, if_neg hty]
          cases value.same (.boolean true) <;> decide
    refine ⟨some items, hitems, fun _ heq item hitem => ?_, ?_⟩
    · cases heq
      obtain ⟨value, -, hvalue, -, hholds, -⟩ := hvalues item hitem
      exact ⟨value, hvalue, hholds⟩
    · refine Except.ok.inj (hkept.symm.trans (eval_filter_of_ok hitems fun item hitem => ?_))
      obtain ⟨value, truth, -, htruth, hholds, hsame⟩ := hvalues item hitem
      exact ⟨truth, htruth, hholds.trans hsame.symm⟩

end Plan

namespace Scope

variable {scope : Scope} {contextTy element : Ty} {e : Expr} {session between final : Session}
  {receiver node : Node} {services : Services} {store value : Value} {test? : Option Expr}

/-- A test takes an item in, if it is true of the item: as a query of its own, in the context of the
item. Without a test every item is taken in. -/
def Tells (scope : Scope) (element : Ty) (services : Services) (test? : Option Expr)
    (item : Value) (taken : Bool) : Prop :=
  match test? with
  | none => taken = true
  | some test => ∃ value, (∀ session, scope.Gives element session services item test value) ∧
      taken = value.same (.boolean true)

/-- A query counts the items of what an expression gives that a test takes in. Those are the items
that the expression gives in the query, and by itself too, if the query keeps its variables. -/
structure Counts (scope : Scope) (contextTy element : Ty) (list node : Node)
    (test? : Option Expr) (services : Services) (store value : Value)
    (items? : Option (List Value)) (taken : Value → Bool) : Prop where
  items : list.plan.eval services (Query.environmentOf node store) = .ok (.ofSequence items?)
  alone : (Query.ofNode list contextTy).SharedBy (.ofNode node contextTy) →
    (Query.ofNode list contextTy).run services store = .ok (.ofSequence items?)
  tells : ∀ items ∈ items?, ∀ item ∈ items,
    scope.Tells element services test? item (taken item)
  counted : value = .counted (items?.map (List.filter taken))

/-- The count of what a test takes in of a list, or of all its items without one. -/
def countItems (scope : Scope) (contextTy : Ty) (list : Node) (test? : Option Expr) :
    Compile Node :=
  scope.callMethod .parameter list "count" test?.toList (context contextTy)

/-- What an expression compiles to in a context is good. -/
theorem good_of_compile (hmethods : scope.methods.Sound .none)
    (h : (scope.compile (context contextTy) e) session = .ok receiver between) :
    receiver.Good .none (.only contextName contextTy) :=
  have hscope := (sound_none .none hmethods).1
  compileExpr_ensures hscope (sound_fieldCompiler hscope) (good_context contextTy) e
    (fun _ _ => trivial) _ _ _ h

/-- The method `count` as one that finishes a list. -/
def counting : Method :=
  Method.finishing "count" fun plan => plan.reduce .count

/-- On a node, `count` is grafted at the nearest list of the chain. -/
theorem countItems_eq_graft (hmethods : scope.methods = .standard) (node : Node)
    (test? : Option Expr) :
    scope.countItems contextTy node test? =
      node.graft "count" fun list => counting.apply list (context contextTy)
        (scope.callArguments .parameter (scope.fieldCompiler .parameter) test?.toList) := by
  have hcheck : counting.checkArity (scope.callArguments .parameter
      (scope.fieldCompiler .parameter) test?.toList).length = .ok () := by
    rw [length_callArguments]
    cases test? <;> rfl
  have hfind : scope.methods.find? "count" = some counting := find?_count hmethods
  unfold countItems callMethod
  rw [MethodLibrary.call_eq_graft hfind rfl, hcheck]
  rfl

/-- Counting the items of a list is the method for it, with the test as its argument. -/
theorem countItems_of_isSequence (hmethods : scope.methods = .standard)
    (hsequence : node.ty.isSequence = true) (test? : Option Expr) :
    scope.countItems contextTy node test? = counting.apply node (context contextTy)
      (scope.callArguments .parameter (scope.fieldCompiler .parameter) test?.toList) := by
  rw [countItems_eq_graft hmethods]
  exact Plan.graft_of_isSequence hsequence

/-- A count is made of the list of a chain, and the links are built again above it. -/
theorem countItems_eq_ok (hmethods : scope.methods = .standard) {links : List Link} {list : Plan}
    (hchain : receiver.plan.Chain links list) :
    scope.countItems contextTy receiver test? session = .ok node final ↔
      ∃ counted, scope.countItems contextTy { receiver with plan := list } test? session =
          .ok counted final ∧ Link.overAll? links counted = some node := by
  have hlist : ({ receiver with plan := list } : Node).ty.isSequence = true := hchain.isSequence
  rw [countItems_eq_graft hmethods, countItems_of_isSequence hmethods hlist]
  exact hchain.graft_eq_ok

/-- The count of an expression is that of the node that it compiles to. -/
theorem compile_count_of_ok (hreceiver : (scope.compile (context contextTy) e) session =
      .ok receiver between) (test? : Option Expr) :
    (scope.compile (context contextTy) (.call e "count" test?.toList)) session =
      scope.countItems contextTy receiver test? between := by
  unfold compile compileExpr
  exact bind_of_ok hreceiver

/-- On a list, `count` counts. -/
theorem counts_of_countItems (hmethods : scope.methods = .standard)
    (hreceiver : (scope.compile (context contextTy) e) session = .ok receiver between)
    (hty : receiver.ty = .list element)
    (h : scope.countItems contextTy receiver test? between = .ok node final) :
    node.ty = .int .i32 ∧ ∀ services store value,
      (Query.ofNode node contextTy).run services store = .ok value →
        ∃ items? taken, scope.Counts contextTy element receiver node test? services store value
          items? taken := by
  have hsteady : scope.methods.Steady := hmethods ▸ MethodLibrary.steady_standard
  have hlibrary : scope.methods.CapturesOnce := hmethods ▸ MethodLibrary.capturesOnce_standard
  have honce : receiver.CapturesOnce := compileExpr_once hlibrary (fieldCompiler_once hlibrary)
    (show (context contextTy).CapturesOnce from List.nodup_nil) e _ _ _ hreceiver
  have hsequence : receiver.ty.isSequence = true := by
    rw [hty]
    rfl
  rw [countItems_of_isSequence hmethods hsequence] at h
  -- without a test the count is of all items, with one of those that the filter keeps
  cases test? with
  | none =>
    cases (Method.apply_finishing_nil hsequence).symm.trans h
    refine ⟨rfl, fun services store value hrun => ?_⟩
    obtain ⟨hservices, hvalue⟩ := Query.run_ofNode_eq_ok.mp hrun
    obtain ⟨items?, hitems, rfl⟩ := Plan.exists_of_eval_count hvalue
    refine ⟨items?, fun _ => true, hitems, fun _ => ?_, fun _ _ _ _ => rfl, ?_⟩
    · exact Query.run_ofNode_eq_ok.mpr ⟨hservices, hitems⟩
    · cases items? <;> simp
  | some test =>
    unfold Option.toList callArguments callArguments at h
    obtain ⟨kept, hkept, rfl⟩ := (Method.apply_finishing_eq_ok hsequence).mp h
    rw [apply_element rfl hty] at hkept
    obtain ⟨node, predicate, hnode, hpredicate, rfl⟩ := Method.filtered_eq_ok.mp hkept
    refine ⟨rfl, fun services store value hrun => ?_⟩
    obtain ⟨hservices, hvalue⟩ := Query.run_ofNode_eq_ok.mp hrun
    obtain ⟨kept?, hfiltered, rfl⟩ := Plan.exists_of_eval_count hvalue
    obtain ⟨items?, hitems, htells, heq⟩ :=
      Plan.exists_of_eval_filter_asPredicate? hpredicate hfiltered
    refine ⟨items?, _, hitems, fun hshared => ?_, fun items hsome item hitem => ?_,
      congrArg Value.counted (Value.ofSequence_injective heq)⟩
    · refine Query.run_ofNode_eq_ok.mpr ⟨fun service hservice => ?_, ?_⟩
      · exact hservices service (Node.mem_foldl_addService.mpr (.inl hservice))
      · rw [← Query.eval_of_sharedBy (sound_of_compile hsteady.sound hreceiver) hshared]
        exact hitems
    · obtain ⟨value, htest, hholds⟩ := htells items hsome item hitem
      refine ⟨value, gives_on_item hsteady hnode (fun service hservice => ?_)
        ((Node.keptIn_environmentOf _ store).of_join_right honce) htest, hholds⟩
      exact hservices service (Node.mem_foldl_addService.mpr (.inr hservice))

/-- What `count` makes of a list is a number. -/
theorem ty_of_apply_counting {caller : Node} {arguments : List CallArgument}
    (hsequence : node.ty.isSequence = true)
    (h : counting.apply node caller arguments session = .ok receiver final) :
    receiver.ty = .int .i32 := by
  obtain ⟨element, hty⟩ := Ty.eq_list_of_isSequence hsequence
  rw [apply_element rfl hty] at h
  obtain ⟨kept, _, _, hend⟩ := bind_eq_ok.mp h
  obtain ⟨rfl, -⟩ := pure_eq_ok.mp hend
  rfl

section Chains

variable {links : List Link} {link : Link} {list : Plan} (hmethods : scope.methods = .standard)
  (hrebuilds : receiver.Rebuilds) (hplain : receiver.plan.isPlainChain = true)

include hmethods hrebuilds hplain

/-- The number of the items of the list of a chain is refused by the link above the list, unless
that is a call. -/
theorem overAll?_of_countItems {counted : Node}
    (hchain : receiver.plan.Chain (links ++ [link]) list)
    (h : scope.countItems contextTy { receiver with plan := list } test? session =
      .ok counted final) :
    counted.ty = .int .i32 ∧ Link.overAll? (links ++ [link]) counted =
      if link.isCall then some (counted.map (Link.stack (links ++ [link]))) else none := by
  have hlist : ({ receiver with plan := list } : Node).ty.isSequence = true := hchain.isSequence
  rw [countItems_of_isSequence hmethods hlist] at h
  have hty : counted.ty = .int .i32 := ty_of_apply_counting hlist h
  refine ⟨hty, hchain.overAll?_of_bare hplain hrebuilds ?_ ?_⟩
  · rw [hty]
    rfl
  · rw [hty]
    rfl

/-- Below a call, the count takes the place of the list, and all links are as they were. -/
theorem countItems_of_isCall (hchain : receiver.plan.Chain (links ++ [link]) list)
    (hcall : link.isCall = true) :
    scope.countItems contextTy receiver test? session = .ok node final ↔
      ∃ counted, scope.countItems contextTy { receiver with plan := list } test? session =
          .ok counted final ∧ counted.ty = .int .i32 ∧
        node = counted.map (Link.stack (links ++ [link])) := by
  rw [countItems_eq_ok hmethods hchain]
  constructor
  · rintro ⟨counted, hcounted, hover⟩
    obtain ⟨hty, heq⟩ := overAll?_of_countItems hmethods hrebuilds hplain hchain hcounted
    rw [if_pos hcall] at heq
    cases heq.symm.trans hover
    exact ⟨counted, hcounted, hty, rfl⟩
  · rintro ⟨counted, hcounted, -, rfl⟩
    obtain ⟨-, heq⟩ := overAll?_of_countItems hmethods hrebuilds hplain hchain hcounted
    rw [if_pos hcall] at heq
    exact ⟨counted, hcounted, heq⟩

/-- What is no list, and is not made of one by a call, is refused, unless the test already is on the
items of the nearest list. -/
theorem countItems_refused (hscalar : receiver.ty.isSequence = false)
    (hpasses : ¬ receiver.plan.PassesList) (test? : Option Expr) (session : Session) :
    ∃ halt final, scope.countItems contextTy receiver test? session = .error halt final ∧
      (halt = .fault (.noSequence "count" receiver.ty) ∨ ∃ test links list, test? = some test ∧
        receiver.plan.Chain links list ∧
        scope.countItems contextTy { receiver with plan := list } test? session =
          .error halt final) := by
  cases hrun : scope.countItems contextTy receiver test? session with
  | ok node final =>
    obtain ⟨links, list, hchain⟩ :=
      Plan.exists_chain_of_graft _ (countItems_eq_graft hmethods receiver test? ▸ hrun)
    obtain ⟨counted, hcounted, hover⟩ := (countItems_eq_ok hmethods hchain).mp hrun
    rcases List.eq_nil_or_concat links with rfl | ⟨above, link, rfl⟩
    · have hsame : receiver.ty = list.ty := congrArg Plan.ty hchain.of_nil
      rw [hsame, hchain.isSequence] at hscalar
      cases hscalar
    · rw [List.concat_eq_append] at hchain hover
      have heq := (overAll?_of_countItems hmethods hrebuilds hplain hchain hcounted).2
      have hcall : link.isCall ≠ true := fun h => hpasses ⟨above, link, list, hchain, h⟩
      rw [if_neg hcall] at heq
      cases heq.symm.trans hover
  | error halt final =>
    refine ⟨halt, final, rfl, ?_⟩
    rw [countItems_eq_graft hmethods] at hrun
    refine (Plan.graft_eq_error _ hrun).imp_right ?_
    rintro ⟨links, list, hchain, hlist⟩
    have hsequence : ({ receiver with plan := list } : Node).ty.isSequence = true :=
      hchain.isSequence
    cases test? with
    | none => cases (Method.apply_finishing_nil hsequence).symm.trans hlist
    | some test =>
      refine ⟨test, links, list, rfl, hchain, ?_⟩
      rw [countItems_of_isSequence hmethods hsequence]
      exact hlist

end Chains

/-- Wherever `count` is called, with or without a test, with the standard methods. On a list it has
the type of an integer of 32 bits and gives the number of the items that the test takes in, and
`null` in the place of a list that is `null`. On what is no list it is refused, because there is
nothing to count, or because the test does not compile on the items of the nearest list of the
chain. That is so unless the nearest list is the first argument of a call. Then the count takes the
place of the list, and the whole is what it was, at the same type: the service gets a number. -/
theorem count_counts (hmethods : scope.methods = .standard)
    (hreceiver : (scope.compile (context contextTy) e) session = .ok receiver between)
    (test? : Option Expr) :
    (∀ element node final, receiver.ty = .list element →
      (scope.compile (context contextTy) (.call e "count" test?.toList)) session =
        .ok node final →
      node.ty = .int .i32 ∧ ∀ services store value,
        (Query.ofNode node contextTy).run services store = .ok value →
          ∃ items? taken, scope.Counts contextTy element receiver node test? services store value
            items? taken) ∧
    (receiver.ty.isSequence = false → ¬ receiver.plan.PassesList →
      ∃ halt final,
        (scope.compile (context contextTy) (.call e "count" test?.toList)) session =
          .error halt final ∧
        (halt = .fault (.noSequence "count" receiver.ty) ∨ ∃ test links list, test? = some test ∧
          receiver.plan.Chain links list ∧
          scope.countItems contextTy { receiver with plan := list } test? between =
            .error halt final)) ∧
    ∀ links link list, receiver.plan.Chain (links ++ [link]) list → link.isCall = true →
      (∀ node final,
        (scope.compile (context contextTy) (.call e "count" test?.toList)) session =
            .ok node final ↔
          ∃ counted, scope.countItems contextTy { receiver with plan := list } test? between =
              .ok counted final ∧ counted.ty = .int .i32 ∧
            node = counted.map (Link.stack (links ++ [link]))) ∧
      ∀ counted : Node, (counted.map (Link.stack (links ++ [link]))).ty = receiver.ty := by
  have hregular : scope.methods.Regular := hmethods ▸ MethodLibrary.regular_standard
  have hrebuilds : receiver.Rebuilds :=
    (Node.Produced.expression hregular (.parameter _ _) hreceiver).rebuilds
  have hplain : receiver.plan.isPlainChain = true :=
    (good_of_compile hregular.sound hreceiver).chain
  rw [compile_count_of_ok hreceiver]
  refine ⟨fun element node final hty h => ?_, fun hscalar hpasses => ?_,
    fun links link list hchain hcall => ⟨fun node final => ?_, fun counted => ?_⟩⟩
  · exact counts_of_countItems hmethods hreceiver hty h
  · exact countItems_refused hmethods hrebuilds hplain hscalar hpasses test? between
  · exact countItems_of_isCall hmethods hrebuilds hplain hchain hcall
  · change (Link.stack (links ++ [link]) counted.plan).ty = receiver.plan.ty
    rw [← hchain.stack_eq]
    exact Link.ty_stack_concat ..

end Scope

/-- A host with people, who are active or not, and a service that is asked who they are. -/
def censusHost : Host where
  schema := .ofParts "Query" [] [
    .ofFields "Query" none [
      .ofMember "people" (.list (.object "Person")),
      { name := "who"
        ty := .string
        resolver := .service "Greeter" ["people"] fun _ arguments => .ok (arguments.headD .null)
        arguments := []
        requirement? := none
        sequenceArguments := .none }],
    .ofFields "Person" none [.ofMember "active" .boolean]] []
  methods := .standard
  depth := 1

/-- A call whose first argument is a list. -/
def Plan.isCallOnList : Plan → Bool
  | call ty _ _ _ (first :: _) => !ty.isSequence && first.ty.isSequence
  | _ => false

/-- A call whose first argument is a list is a link on this list. -/
theorem Plan.exists_chain_of_isCallOnList {plan : Plan} (h : plan.isCallOnList = true) :
    ∃ link list, plan.Chain ([] ++ [link]) list ∧ link.isCall = true := by
  unfold isCallOnList at h
  split at h
  · obtain ⟨hscalar, hlist⟩ := Bool.and_eq_true_iff.mp h
    exact ⟨_, _, .call (by simpa using hscalar) (.list hlist), rfl⟩
  · cases h

namespace Scope

/-- One of two people is active. Their number has no items that could be counted. The answer of the
service has none either, but its count is accepted: it is the answer to the number of the people. -/
theorem count_counts_census :
    let scope := censusHost.scope []
    let query := context (.object "Query")
    let people : Expr := .identifier "people"
    let store := crewContext [crewMember (.boolean true), crewMember (.boolean false)]
    (∃ receiver node final items? taken,
      (scope.compile query (.call people "count" [.identifier "active"])) default =
        .ok node final ∧ node.ty = .int .i32 ∧
      scope.Counts (.object "Query") (.object "Person") receiver node (some (.identifier "active"))
        [] store (.int 1) items? taken) ∧
    (∃ final, (scope.compile query (.call (.call people "count" []) "count" [])) default =
      .error (.fault (.noSequence "count" (.int .i32))) final) ∧
    ∃ node final, (scope.compile query (.call (.identifier "who") "count" [])) default =
      .ok node final ∧ node.ty = .string := by
  intro scope query people store
  have hpeople : (scope.compile query people) default = .ok _ _ := rfl
  refine ⟨?_, ?_, ?_⟩
  · have hcount : (scope.compile query (.call people "count" [.identifier "active"])) default =
        .ok _ _ := rfl
    obtain ⟨hty, hcounts⟩ :=
      (count_counts rfl hpeople (some (.identifier "active"))).1 _ _ _ rfl hcount
    obtain ⟨items?, taken, hcounts⟩ := hcounts [] store (.int 1) rfl
    exact ⟨_, _, _, items?, taken, hcount, hty, hcounts⟩
  · have hcount : (scope.compile query (.call people "count" [])) default = .ok _ _ := rfl
    -- the only link above the people is the count, which is no call
    have hpasses : ¬ (peoplePlan.reduce .count).PassesList := by
      rintro ⟨links, link, list, hchain, hcall⟩
      generalize hlinks : links ++ [link] = all at hchain
      cases hchain with
      | list hlist => cases hlist
      | unary _ _ hoperand =>
        cases hoperand with
        | list _ =>
          obtain ⟨-, hlink⟩ := List.append_inj' (hlinks.trans (List.nil_append _).symm) rfl
          cases hlink
          cases hcall
        | unary hscalar _ _ => cases hscalar
    obtain ⟨halt, final, hrun, rfl | ⟨_, _, _, h, -⟩⟩ :=
      (count_counts rfl hcount none).2.1 rfl hpasses
    · exact ⟨final, hrun⟩
    · cases h
  · obtain ⟨receiver, between, hreceiver, htest⟩ := exists_of_yields (show
      (scope.compile query (.identifier "who")).yields default
        (fun node => node.ty = .string ∧ node.plan.isCallOnList) = true by decide +kernel)
    obtain ⟨hty, hcalls⟩ : receiver.ty = .string ∧ receiver.plan.isCallOnList = true := by
      simpa using htest
    obtain ⟨link, list, hchain, hcall⟩ := Plan.exists_chain_of_isCallOnList hcalls
    have hlist : ({ receiver with plan := list } : Node).ty.isSequence = true := hchain.isSequence
    have hcount : scope.countItems (.object "Query") { receiver with plan := list } none between =
        .ok ({ receiver with plan := list.reduce .count }) (inside between) :=
      (congrFun (countItems_of_isSequence rfl hlist none) between).trans
        (Method.apply_finishing_nil hlist)
    obtain ⟨hcompiles, hkept⟩ := (count_counts rfl hreceiver none).2.2 [] link list hchain hcall
    exact ⟨_, _, (hcompiles _ _).mpr ⟨_, hcount, rfl, rfl⟩, (hkept _).trans hty⟩

end Scope

end TypedQuery
