import TypedQuery.Proofs.Query.Dividing

/-!
# A predicate is a filter first

`first`, `last`, `count` and `distinct` with a predicate make of a receiver what they make without
one of the receiver that `where` has filtered by it. The list may be deep in the chain of the
receiver: `where` leaves the links above it as they are, so both calls reach it by the same links.
-/

namespace TypedQuery

open Halting

namespace Method

/-- The method `where`. -/
def filter : Method :=
  ⟨"where", .exactly 1, .element, false, filtered⟩

/-- A method that finishes what its predicate keeps of a list, or the whole list without one. -/
def finishing (name : String) (finish : Plan → Plan) : Method :=
  ⟨name, .range 0 (some 1), .element, false, fun call => do
    let kept ← filtered call
    return kept.map finish⟩

variable {name : String} {finish : Plan → Plan} {r list caller node kept : Node}
  {argument : CallArgument} {session final : Session}

/-- The methods that may take a predicate finish a filtered list. -/
theorem exists_finishing (hname : name ∈ ["first", "last", "count", "distinct"]) :
    ∃ finish, MethodLibrary.standard.find? name = some (finishing name finish) := by
  simp only [List.mem_cons, List.not_mem_nil, or_false] at hname
  rcases hname with rfl | rfl | rfl | rfl
  · exact ⟨fun plan => plan.reduce .first, rfl⟩
  · exact ⟨fun plan => plan.reduce .last, rfl⟩
  · exact ⟨fun plan => plan.reduce .count, rfl⟩
  · exact ⟨Plan.distinct, rfl⟩

/-- What a filter makes does not depend on the name of the method. -/
theorem filtered_named {inner : Node} (other : String) :
    filtered ⟨name, list, inner, [argument]⟩ session = .ok node final ↔
      filtered ⟨other, list, inner, [argument]⟩ session = .ok node final := by
  rw [filtered_eq_ok, filtered_eq_ok]
  rfl

/-- A filter keeps the type of the list. -/
theorem ty_of_apply_filter (hsequence : list.ty.isSequence = true)
    (h : filter.apply list caller [argument] session = .ok kept final) : kept.ty = list.ty := by
  obtain ⟨element, hlist⟩ := Ty.eq_list_of_isSequence hsequence
  rw [Scope.apply_element rfl hlist] at h
  obtain ⟨test, predicate, -, -, rfl⟩ := filtered_eq_ok.mp h
  rfl

/-- With a predicate, a list is filtered and finished. -/
theorem apply_finishing_eq_ok (hsequence : list.ty.isSequence = true) :
    (finishing name finish).apply list caller [argument] session = .ok node final ↔
      ∃ kept, filter.apply list caller [argument] session = .ok kept final ∧
        node = kept.map finish := by
  obtain ⟨element, hlist⟩ := Ty.eq_list_of_isSequence hsequence
  rw [Scope.apply_element rfl hlist, Scope.apply_element rfl hlist]
  constructor
  · intro h
    obtain ⟨kept, between, hkept, hend⟩ := bind_eq_ok.mp h
    obtain ⟨rfl, rfl⟩ := pure_eq_ok.mp hend
    exact ⟨kept, (filtered_named _).mp hkept, rfl⟩
  · rintro ⟨kept, hkept, rfl⟩
    exact bind_eq_ok.mpr ⟨kept, final, (filtered_named _).mp hkept, rfl⟩

/-- Without a predicate, a list is finished as it is. -/
theorem apply_finishing_nil (hsequence : list.ty.isSequence = true) :
    (finishing name finish).apply list caller [] session =
      .ok (list.map finish) (Scope.inside session) := by
  obtain ⟨element, hlist⟩ := Ty.eq_list_of_isSequence hsequence
  rw [Scope.apply_element rfl hlist]
  rfl

/-- Grafted below a chain, a method with a predicate is the filter followed by the method without
one, which takes a name for an item that nothing uses. -/
theorem graft_finishing (hr : r.Rebuilds) :
    (∃ kept between,
      r.graft "where" (fun list => filter.apply list caller [argument]) session =
          .ok kept between ∧
        kept.graft name (fun list => (finishing name finish).apply list caller []) between =
          .ok node final) ↔
      ∃ between,
        r.graft name (fun list => (finishing name finish).apply list caller [argument]) session =
          .ok node between ∧ final = Scope.inside between := by
  constructor
  · rintro ⟨kept, between, hkept, hnode⟩
    obtain ⟨links, list, hchain⟩ := Plan.exists_chain_of_graft _ hkept
    have hlist : ({ r with plan := list } : Node).ty.isSequence = true := hchain.isSequence
    obtain ⟨made, hmade, hover⟩ := hchain.graft_eq_ok.mp hkept
    have hty : made.ty = list.ty := ty_of_apply_filter hlist hmade
    cases (hchain.overAll?_eq hr hty).symm.trans hover
    -- The filter leaves the links as they are, so the second call finds the filtered list by them.
    have hmadeChain := hchain.replace hty
    obtain ⟨finished, hfinished, hover⟩ := hmadeChain.graft_eq_ok.mp hnode
    have hmadeList : made.ty.isSequence = true := hmadeChain.isSequence
    cases (apply_finishing_nil hmadeList).symm.trans hfinished
    refine ⟨between, hchain.graft_eq_ok.mpr ⟨_, ?_, hover⟩, rfl⟩
    exact (apply_finishing_eq_ok hlist).mpr ⟨made, hmade, rfl⟩
  · rintro ⟨between, hnode, rfl⟩
    obtain ⟨links, list, hchain⟩ := Plan.exists_chain_of_graft _ hnode
    have hlist : ({ r with plan := list } : Node).ty.isSequence = true := hchain.isSequence
    obtain ⟨finished, hfinished, hover⟩ := hchain.graft_eq_ok.mp hnode
    obtain ⟨made, hmade, rfl⟩ := (apply_finishing_eq_ok hlist).mp hfinished
    have hty : made.ty = list.ty := ty_of_apply_filter hlist hmade
    have hmadeChain := hchain.replace hty
    have hmadeList : made.ty.isSequence = true := hmadeChain.isSequence
    refine ⟨made.map (Link.stack links), between, hchain.graft_eq hr hmade hty, ?_⟩
    exact hmadeChain.graft_eq_ok.mpr ⟨_, apply_finishing_nil hmadeList, hover⟩

end Method

namespace Scope

variable {scope : Scope} {context node : Node} {name : String} {method : Method}
  {session final : Session} {e p : Expr} {arguments : List Expr}

/-- A call of a method that needs a list, with a number of arguments that it admits, is grafted on
its receiver. -/
theorem compile_call_eq_ok (hfind : scope.methods.find? name = some method)
    (hneeds : method.needsSequence = true)
    (hcount : method.arity.admits arguments.length = true) :
    (scope.compile context (.call e name arguments)) session = .ok node final ↔
      ∃ receiver between, (scope.compile context e) session = .ok receiver between ∧
        receiver.graft method.name (fun list => method.apply list context
          (scope.callArguments .parameter (scope.fieldCompiler .parameter) arguments)) between =
            .ok node final := by
  have hcheck : method.checkArity
      (scope.callArguments .parameter (scope.fieldCompiler .parameter) arguments).length =
        .ok () := by
    unfold Method.checkArity
    rw [length_callArguments, if_pos hcount]
  have hcall : ∀ receiver, scope.methods.call receiver name
      (scope.callArguments .parameter (scope.fieldCompiler .parameter) arguments) context =
        receiver.graft method.name fun list => method.apply list context
          (scope.callArguments .parameter (scope.fieldCompiler .parameter) arguments) := by
    intro receiver
    rw [MethodLibrary.call_eq_graft hfind hneeds, hcheck]
    rfl
  change scope.compileExpr _ _ _ _ session = .ok node final ↔ _
  unfold compileExpr
  simp only [bind_eq_ok, hcall]
  rfl

/-- A call with a predicate compiles where the filter by the predicate and then the call without one
does, and to the same node. -/
theorem compile_finishing (hmethods : scope.methods = .standard) (hcontext : context.Produced)
    (hname : name ∈ ["first", "last", "count", "distinct"]) :
    (scope.compile context (.call (.call e "where" [p]) name [])) session = .ok node final ↔
      ∃ between, (scope.compile context (.call e name [p])) session = .ok node between ∧
        final = inside between := by
  obtain ⟨finish, hfind⟩ := Method.exists_finishing hname
  have hfinish : scope.methods.find? name = some (Method.finishing name finish) := hmethods ▸ hfind
  have hwhere : scope.methods.find? "where" = some Method.filter := by
    rw [hmethods]
    rfl
  have hregular : scope.methods.Regular := hmethods ▸ MethodLibrary.regular_standard
  have hnone : (Method.finishing name finish).arity.admits ([] : List Expr).length = true := rfl
  have hone : (Method.finishing name finish).arity.admits [p].length = true := rfl
  have hfilter : Method.filter.arity.admits [p].length = true := rfl
  rw [compile_call_eq_ok hfinish rfl hnone]
  simp only [compile_call_eq_ok hfinish rfl hone, compile_call_eq_ok hwhere rfl hfilter]
  unfold callArguments callArguments
  constructor
  · rintro ⟨kept, middle, ⟨receiver, between, hreceiver, hkept⟩, hnode⟩
    have hrebuilds := (Node.Produced.expression hregular hcontext hreceiver).rebuilds
    obtain ⟨last, hlast, rfl⟩ := (Method.graft_finishing hrebuilds).mp ⟨kept, middle, hkept, hnode⟩
    exact ⟨last, ⟨receiver, between, hreceiver, hlast⟩, rfl⟩
  · rintro ⟨last, ⟨receiver, between, hreceiver, hlast⟩, rfl⟩
    have hrebuilds := (Node.Produced.expression hregular hcontext hreceiver).rebuilds
    obtain ⟨kept, middle, hkept, hnode⟩ :=
      (Method.graft_finishing hrebuilds).mpr ⟨last, hlast, rfl⟩
    exact ⟨kept, middle, ⟨receiver, between, hreceiver, hkept⟩, hnode⟩

/-- Calling one of these methods with a predicate is filtering by the predicate and then calling
the method without one. Either both compile, and to the same node: the same plan of the same type
with the same variables and services, which the second leaves with one more name taken. Or neither
does. So whatever comes of one query, a value or a failure, comes of the other. -/
theorem predicate_filters (hmethods : scope.methods = .standard) (hcontext : context.Produced)
    (hname : name ∈ ["first", "last", "count", "distinct"]) (e p : Expr) (session : Session) :
    (∀ node final,
      (scope.compile context (.call (.call e "where" [p]) name [])) session = .ok node final ↔
        ∃ between, (scope.compile context (.call e name [p])) session = .ok node between ∧
          final = inside between) ∧
    ∀ (contextTy : Ty) (services : Services) (store : Value) (outcome : Except RunFault Value),
      (∃ node final, (scope.compile context (.call e name [p])) session = .ok node final ∧
          (Query.ofNode node contextTy).run services store = outcome) ↔
        ∃ node final,
          (scope.compile context (.call (.call e "where" [p]) name [])) session = .ok node final ∧
            (Query.ofNode node contextTy).run services store = outcome := by
  refine ⟨fun node final => compile_finishing hmethods hcontext hname,
    fun contextTy services store outcome => ?_⟩
  simp only [compile_finishing hmethods hcontext hname]
  constructor
  · rintro ⟨node, between, hnode, hrun⟩
    exact ⟨node, inside between, ⟨between, hnode, rfl⟩, hrun⟩
  · rintro ⟨node, _, ⟨between, hnode, -⟩, hrun⟩
    exact ⟨node, between, hnode, hrun⟩

/-- The people of the name `$who` without repetitions, called on the first one of the people. -/
theorem predicate_filters_people :
    let named : Expr := .binary .equal (.identifier "name") (.var "who")
    let first : Expr := .call (.identifier "people") "first" []
    let distinct : Plan := (peoplePlan.filter "p1" (.operator .equal
      ((Plan.param (.object "Person") "p1").member "name" .string)
      (.param .string "$who") .boolean)).distinct.reduce .first
    whoScope.methods = .standard ∧ (Scope.context (.object "Query")).Produced ∧
      "distinct" ∈ ["first", "last", "count", "distinct"] ∧
      (whoScope.compile (Scope.context (.object "Query")) (.call first "distinct" [named]))
          ⟨0, .empty⟩ = .ok ⟨distinct, [("who", .text "Bob")], []⟩ ⟨2, .empty⟩ ∧
      (whoScope.compile (Scope.context (.object "Query"))
          (.call (.call first "where" [named]) "distinct" [])) ⟨0, .empty⟩ =
        .ok ⟨distinct, [("who", .text "Bob")], []⟩ ⟨3, .empty⟩ := by
  intro named first distinct
  have hcontext : (Scope.context (.object "Query")).Produced := .parameter _ _
  have hdistinct : (whoScope.compile (Scope.context (.object "Query"))
      (.call first "distinct" [named])) ⟨0, .empty⟩ =
        .ok ⟨distinct, [("who", .text "Bob")], []⟩ ⟨2, .empty⟩ := by rfl
  have hname : "distinct" ∈ ["first", "last", "count", "distinct"] := by simp
  refine ⟨rfl, hcontext, hname, hdistinct, ?_⟩
  exact ((predicate_filters rfl hcontext hname first named ⟨0, .empty⟩).1 _ _).mpr
    ⟨_, hdistinct, rfl⟩

end Scope

end TypedQuery
