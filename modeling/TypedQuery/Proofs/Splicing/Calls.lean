import TypedQuery.Proofs.Splicing.Compiling

/-!
# Splicing equals substitution

A method that makes a list of a list of the same type does not disturb the chain above it. Called
on a node whose chain leads to a list, it makes the node in which the list is replaced by what the
same call makes of the list, and nothing else is changed.
-/

namespace TypedQuery

open Halting

/-- A node with the variables and services of other nodes after its own. -/
def Node.joinAll (node : Node) (others : List Node) : Node :=
  others.foldl (fun node other => node.join other node.plan) node

/-- This does not depend on the plan of the node. -/
theorem Node.joinAll_withPlan (node : Node) (plan : Plan) (others : List Node) :
    ({ node with plan } : Node).joinAll others = { node.joinAll others with plan } := by
  induction others generalizing node with
  | nil => rfl
  | cons other rest ih => exact ih (node.join other node.plan)

/-- What a call makes of its receiver: a plan of the same type, with the variables and services
of the receiver and then those of its argument if it has one. -/
inductive MethodCall.Reshapes (call : MethodCall) (session final : Session) : Node → Prop
  | plain {plan : Plan} (hempty : call.arguments = []) (hty : plan.ty = call.receiver.ty) :
      Reshapes call session final { call.receiver with plan }
  | joined {plan : Plan} {argument : Node}
      (hargument : call.compileArgument 0 session = .ok argument final)
      (hty : plan.ty = call.receiver.ty) :
      Reshapes call session final (call.receiver.join argument plan)

namespace Method

/-- The standard methods that make a list of a list of the same type. -/
def reshaping : List Method :=
  standard.filter fun method =>
    method.name ∈ ["where", "filter", "distinct", "take", "skip", "orderBy", "orderByDesc"]

/-- The methods that make a list of a list of the same type, one by one. -/
theorem reshaping_eq : reshaping = [
    ⟨"where", .exactly 1, .element, false, filtered⟩,
    ⟨"filter", .exactly 1, .element, false, filtered⟩,
    ⟨"distinct", .range 0 (some 1), .element, false, distinct⟩,
    ⟨"take", .exactly 1, .caller, true, page .take⟩,
    ⟨"skip", .exactly 1, .caller, true, page .skip⟩,
    ⟨"orderBy", .exactly 1, .element, false, orderBy false⟩,
    ⟨"orderByDesc", .exactly 1, .element, false, orderBy true⟩] :=
  rfl

/-- The context in which a method on a list of a type compiles its arguments, and the session in
which it does: the context of the call, or an item of the list under the next name. -/
inductive CompilesArgumentsIn (method : Method) (list : Ty) (caller : Node) (session : Session) :
    Node → Session → Prop
  | caller (hcontext : method.context = .caller) :
      CompilesArgumentsIn method list caller session caller session
  | element {element : Ty} (hcontext : method.context = .element) (hlist : list = .list element) :
      CompilesArgumentsIn method list caller session
        (.ofPlan (.param element (parameterName session.parameters)))
        { session with parameters := session.parameters + 1 }

variable {method : Method} {call : MethodCall} {receiver caller result : Node}
  {arguments : List CallArgument} {session final : Session}

/-- A filter makes a list of the same type, with what its predicate captures. -/
theorem filtered_reshapes (h : filtered call session = .ok result final) :
    call.Reshapes session final result := by
  unfold filtered at h
  by_cases hempty : call.arguments.isEmpty = true
  · rw [if_pos hempty] at h
    obtain ⟨rfl, rfl⟩ := pure_eq_ok.mp h
    exact .plain (List.isEmpty_iff.mp hempty) rfl
  · rw [if_neg hempty] at h
    obtain ⟨test, between, htest, h⟩ := bind_eq_ok.mp h
    obtain ⟨rfl, rfl⟩ := pure_eq_ok.mp h
    obtain ⟨argument, between, hargument, htest⟩ := bind_eq_ok.mp htest
    cases hplan : argument.plan.asPredicate? with
    | none =>
      rw [hplan] at htest
      cases htest
    | some plan =>
      rw [hplan] at htest
      obtain ⟨rfl, rfl⟩ := pure_eq_ok.mp htest
      change call.Reshapes session final
        (call.receiver.join argument (call.receiver.plan.filter call.elementName plan))
      exact .joined hargument rfl

/-- Removing repetitions makes a list of the same type. -/
theorem distinct_reshapes (h : distinct call session = .ok result final) :
    call.Reshapes session final result := by
  obtain ⟨node, between, hfiltered, h⟩ := bind_eq_ok.mp h
  obtain ⟨rfl, rfl⟩ := pure_eq_ok.mp h
  cases filtered_reshapes hfiltered with
  | plain hempty hty => exact .plain hempty hty
  | joined hargument hty => exact .joined hargument hty

/-- A cut makes a list of the same type, with what the count captures. -/
theorem page_reshapes (cut : Plan → Plan → Plan)
    (hcut : ∀ source count, (cut source count).ty = source.ty)
    (h : page cut call session = .ok result final) : call.Reshapes session final result := by
  obtain ⟨count, between, hcount, h⟩ := bind_eq_ok.mp h
  split at h
  · cases h
  · obtain ⟨rfl, rfl⟩ := pure_eq_ok.mp h
    exact .joined hcount (hcut _ _)

/-- Sorting makes a list of the same type, with what its key captures. -/
theorem orderBy_reshapes {descending : Bool}
    (h : orderBy descending call session = .ok result final) :
    call.Reshapes session final result := by
  obtain ⟨key, between, hkey, h⟩ := bind_eq_ok.mp h
  split at h
  · obtain ⟨rfl, rfl⟩ := pure_eq_ok.mp h
    exact .joined hkey rfl
  · cases h

/-- The rules of these methods keep the type of the list. -/
theorem build_reshapes (hmethod : method ∈ reshaping)
    (h : method.build call session = .ok result final) : call.Reshapes session final result := by
  simp only [reshaping_eq, List.mem_cons, List.not_mem_nil, or_false] at hmethod
  rcases hmethod with rfl | rfl | rfl | rfl | rfl | rfl | rfl
  · exact filtered_reshapes h
  · exact filtered_reshapes h
  · exact distinct_reshapes h
  · exact page_reshapes .take (fun _ _ => rfl) h
  · exact page_reshapes .skip (fun _ _ => rfl) h
  · exact orderBy_reshapes h
  · exact orderBy_reshapes h

/-- These methods need a list, and have no more than one argument. -/
theorem needsSequence_of_mem_reshaping (hmethod : method ∈ reshaping) :
    method.needsSequence = true ∧ ∀ count, method.arity.admits count = true → count ≤ 1 := by
  have hone : ∀ count, (Arity.exactly 1).admits count = true → count ≤ 1 := by
    simp +contextual [Arity.admits]
  have hoptional : ∀ count, (Arity.range 0 (some 1)).admits count = true → count ≤ 1 := by
    simp [Arity.admits]
  simp only [reshaping_eq, List.mem_cons, List.not_mem_nil, or_false] at hmethod
  rcases hmethod with rfl | rfl | rfl | rfl | rfl | rfl | rfl
  · exact ⟨rfl, hone⟩
  · exact ⟨rfl, hone⟩
  · exact ⟨rfl, hoptional⟩
  · exact ⟨rfl, hone⟩
  · exact ⟨rfl, hone⟩
  · exact ⟨rfl, hone⟩
  · exact ⟨rfl, hone⟩

/-- Applied to a list, such a method makes a list of the same type. -/
theorem apply_reshapes (hmethod : method ∈ reshaping)
    (h : method.apply receiver caller arguments session = .ok result final) :
    ∃ inner start, method.CompilesArgumentsIn receiver.ty caller session inner start ∧
      MethodCall.Reshapes ⟨method.name, receiver, inner, arguments⟩ start final result := by
  unfold apply at h
  cases hcontext : method.context with
  | caller =>
    rw [hcontext] at h
    exact ⟨caller, session, .caller hcontext, build_reshapes hmethod h⟩
  | element =>
    rw [hcontext] at h
    dsimp only at h
    cases helement : receiver.ty.element? with
    | none =>
      rw [helement] at h
      cases h
    | some element =>
      rw [helement] at h
      obtain ⟨_, _, hname, h⟩ := bind_eq_ok.mp h
      cases hname
      exact ⟨_, _, .element hcontext (Ty.eq_list_of_element? helement), build_reshapes hmethod h⟩

end Method

/-- On every receiver, a method that needs a list is applied to the nearest list of the chain. -/
theorem MethodLibrary.call_eq_graft {library : MethodLibrary} {name : String} {method : Method}
    (hfind : library.find? name = some method) (hneeds : method.needsSequence = true)
    (receiver caller : Node) (arguments : List CallArgument) :
    library.call receiver name arguments caller = (do
      Halting.ofExcept (method.checkArity arguments.length)
      receiver.graft method.name fun list => method.apply list caller arguments) := by
  unfold call
  rw [hfind]
  refine congrArg (Halting.ofExcept (method.checkArity arguments.length) >>= ·) (funext fun _ => ?_)
  rw [hneeds, Bool.true_and]
  cases hsequence : receiver.ty.isSequence with
  | false => rfl
  | true =>
    unfold Node.graft Plan.graft
    rw [if_pos (show receiver.plan.ty.isSequence = true from hsequence)]
    rfl

namespace Scope

variable {scope : Scope} {r caller result : Node} {links : List Link} {list : Plan}
  {name : String} {method : Method} {arguments : List Expr} {session final : Session}

/-- The expressions of a call compile to nodes in the context of its arguments. -/
def ArgumentNode (scope : Scope) (method : Method) (list : Ty) (caller : Node)
    (session final : Session) (expr : Expr) (node : Node) : Prop :=
  ∃ context start, method.CompilesArgumentsIn list caller session context start ∧
    (scope.compile context expr) start = .ok node final

/-- A call has as many arguments as it is given expressions. -/
theorem length_callArguments (capture : Capture) (fields : FieldCompiler) (arguments : List Expr) :
    (scope.callArguments capture fields arguments).length = arguments.length := by
  induction arguments with
  | nil =>
    unfold callArguments
    rfl
  | cons expr rest ih =>
    unfold callArguments
    exact congrArg (· + 1) ih

/-- What a call that keeps the type of a list makes of it has the captures of the list and of the
arguments. -/
theorem callArguments_reshapes {receiver inner : Node} {start : Session}
    (hcount : arguments.length ≤ 1)
    (hinner : method.CompilesArgumentsIn receiver.ty caller session inner start)
    (h : MethodCall.Reshapes ⟨method.name, receiver, inner,
      scope.callArguments .parameter (scope.fieldCompiler .parameter) arguments⟩ start final
        result) :
    result.ty = receiver.ty ∧ ∃ used : List Node,
      List.Forall₂ (scope.ArgumentNode method receiver.ty caller session final) arguments used ∧
        result = { receiver.joinAll used with plan := result.plan } := by
  match arguments with
  | [] =>
    cases h with
    | plain _ hty => exact ⟨hty, [], .nil, rfl⟩
    | joined hargument => cases hargument
  | [expr] =>
    cases h with
    | plain hempty _ => cases hempty
    | @joined _ argument hargument hty =>
      exact ⟨hty, [argument], .cons ⟨inner, start, hinner, hargument⟩ .nil, rfl⟩
  | _ :: _ :: _ => exact absurd hcount (by simp)

/-- If a method that keeps the type of a list can be called on the list to which the chain of a
produced node leads, with the captures of the node, then it can be called on the node. The call
makes the node with its list replaced by what the call makes of the list: the links above it are
the same, at the same types. The captures are those of the node and then those of the arguments,
and the value is that of the links on the value of the call on the list. -/
theorem callMethod_spliced (hr : r.Produced) (hchain : r.plan.Chain links list)
    (hfind : scope.methods.find? name = some method) (hmethod : method ∈ Method.reshaping)
    (h : scope.callMethod .parameter { r with plan := list } name arguments caller session =
      .ok result final) :
    r.plan = Link.stack links list ∧
      scope.callMethod .parameter r name arguments caller session =
        .ok (result.map (Link.stack links)) final ∧
      result.ty = list.ty ∧
      (∃ used : List Node,
        List.Forall₂ (scope.ArgumentNode method list.ty caller session final) arguments used ∧
          result = { r.joinAll used with plan := result.plan }) ∧
      ∀ (services : Services) (environment : Environment),
        (result.map (Link.stack links)).plan.eval services environment =
          Link.evalStack services environment links (result.plan.eval services environment) := by
  obtain ⟨hneeds, harity⟩ := Method.needsSequence_of_mem_reshaping hmethod
  unfold callMethod at h ⊢
  rw [MethodLibrary.call_eq_graft hfind hneeds] at h ⊢
  obtain ⟨_, hcheck, h⟩ := check_eq_ok.mp h
  -- these methods take one argument at most, whose context is that of the list
  have hcount : arguments.length ≤ 1 := by
    refine harity _ ?_
    unfold Method.checkArity at hcheck
    rw [length_callArguments] at hcheck
    by_contra hadmits
    rw [if_neg hadmits] at hcheck
    cases hcheck
  have hlist : method.apply { r with plan := list } caller
      (scope.callArguments .parameter (scope.fieldCompiler .parameter) arguments) session =
        .ok result final := by
    unfold Node.graft Plan.graft at h
    rwa [if_pos hchain.isSequence] at h
  obtain ⟨inner, start, hinner, hreshapes⟩ := Method.apply_reshapes hmethod hlist
  obtain ⟨hty, hused⟩ := callArguments_reshapes hcount hinner hreshapes
  refine ⟨hchain.stack_eq.symm, ?_, hty, ?_, fun services environment => Link.eval_stack _ _⟩
  · exact check_eq_ok.mpr ⟨_, hcheck, hchain.graft_eq hr.rebuilds hlist hty⟩
  · obtain ⟨used, hnodes, hresult⟩ := hused
    rw [Node.joinAll_withPlan] at hresult
    exact ⟨used, hnodes, hresult⟩

end Scope

/-- A host with a list of people who have names. -/
def peopleHost : Host where
  schema := .ofParts "Query" [] [
    .ofFields "Query" none [.ofMember "people" (.list (.object "Person"))],
    .ofFields "Person" none [.ofMember "name" .string]] []
  methods := .standard
  depth := 1

/-- Its scope with a name as a variable. -/
def whoScope : Scope :=
  peopleHost.scope [("who", .text "Bob")]

/-- The plan of `people`. -/
def peoplePlan : Plan :=
  (Plan.param (.object "Query") contextName).member "people" (.list (.object "Person"))

/-- The record of the name that is selected on a person, the parameter `p1`. -/
def personCard : Plan :=
  .newRecord [("name", .string)] [(Plan.param (.object "Person") "p1").member "name" .string]

/-- The node of `people.first()` with the selected name. -/
def cardOfFirst : Node :=
  .ofPlan ((peoplePlan.reduce .first).given "p1" personCard)

/-- The links of this node above `people`. -/
def linksOfCard : List Link :=
  [.given personCard.ty "p1" personCard, .unary (.object "Person") (.reduce .first)]

/-- The session in which it has been compiled. -/
def cardSession : Session :=
  ⟨2, (Register.empty.create [("name", .string)]).2⟩

/-- What `people` is after `where(name = $who)`. -/
def peopleNamed : Plan :=
  peoplePlan.filter "p2" (.operator .equal ((Plan.param (.object "Person") "p2").member "name"
    .string) (.param .string "$who") .boolean)

/-- Called on the card of the first person, `where(name = $who)` gives the card of the first person
of that name. -/
theorem Scope.callMethod_spliced_people :
    cardOfFirst.Produced ∧ cardOfFirst.plan.Chain linksOfCard peoplePlan ∧
      whoScope.callMethod .parameter cardOfFirst "where"
          [.binary .equal (.identifier "name") (.var "who")] (context (.object "Query"))
          cardSession =
        .ok ⟨(peopleNamed.reduce .first).given "p1" personCard, [("who", .text "Bob")], []⟩
          { cardSession with parameters := 3 } := by
  have hfirst : (whoScope.compile (context (.object "Query")) (.call (.identifier "people") "first"
      [])) ⟨0, .empty⟩ = .ok (.ofPlan (peoplePlan.reduce .first)) ⟨1, .empty⟩ := by rfl
  have hcard : whoScope.select .none [] (.ofPlan (peoplePlan.reduce .first))
      [.field "name" none [] [] .start] ⟨1, .empty⟩ = .ok cardOfFirst cardSession := by rfl
  have hproduced : cardOfFirst.Produced :=
    .select MethodLibrary.regular_standard (.expression MethodLibrary.regular_standard
      (.parameter (.object "Query") contextName) hfirst) hcard
  have hlist : peoplePlan.Chain [] peoplePlan := .list rfl
  have hchain : cardOfFirst.plan.Chain linksOfCard peoplePlan := .given rfl (.unary rfl rfl hlist)
  have hwhere : whoScope.callMethod .parameter { cardOfFirst with plan := peoplePlan } "where"
      [.binary .equal (.identifier "name") (.var "who")] (context (.object "Query")) cardSession =
        .ok ⟨peopleNamed, [("who", .text "Bob")], []⟩ { cardSession with parameters := 3 } := by rfl
  have hmethod : ⟨"where", .exactly 1, .element, false, Method.filtered⟩ ∈ Method.reshaping := by
    simp [Method.reshaping_eq]
  exact ⟨hproduced, hchain, (callMethod_spliced hproduced hchain rfl hmethod hwhere).2.1⟩

end TypedQuery
