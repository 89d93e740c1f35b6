import TypedQuery.Proofs.Capture.Once
import TypedQuery.Proofs.Plan.Literals

/-!
# Membership and equality

`x.in(a, b)` and `x = a or x = b` are compiled along different ways: the one looks for the value of
`x` in a set, the other brings `x` to one type with each literal. Both run `x` and fail where it
fails, and both tell whether the value of `x` is one of the literals. Only a dynamic operand tells
them apart, opposite a text with the shape of an identifier or a timestamp.
-/

namespace TypedQuery

open Halting

namespace Expr

/-- The expression is one of a list of literals. -/
def isOneOf (expr : Expr) (literals : List Literal) : Expr :=
  .call expr "in" (literals.map .literal)

/-- The expression equals a literal. -/
def equals (expr : Expr) (literal : Literal) : Expr :=
  .binary .equal expr (.literal literal)

/-- The expression equals the first literal, or one of the others in their order. -/
def equalsOneOf (expr : Expr) (first : Literal) (others : List Literal) : Expr :=
  others.foldl (fun chain literal => .binary .or chain (expr.equals literal)) (expr.equals first)

end Expr

namespace Query

/-- Nodes with the same variables and services run in one environment, or fail alike. -/
theorem run_of_alike (node : Node) (contextTy : Ty) (services : Services) (store : Value) :
    (∃ fault, ∀ other : Node, other.constants = node.constants → other.services = node.services →
      (ofNode other contextTy).run services store = .error fault) ∨
    ∃ environment, ∀ other : Node, other.constants = node.constants →
      other.services = node.services →
        (ofNode other contextTy).run services store = other.plan.eval services environment := by
  have hrun : ∀ other : Node, other.constants = node.constants → other.services = node.services →
      (ofNode other contextTy).run services store =
        bind services store (ofNode node contextTy).parameters (ofNode node contextTy).arguments
            [] >>=
          fun environment => other.plan.eval services environment := by
    intro other hconstants hservices
    unfold run ofNode
    rw [hconstants, hservices]
  cases hbind : bind services store (ofNode node contextTy).parameters
      (ofNode node contextTy).arguments [] with
  | error fault =>
    rw [hbind] at hrun
    exact .inl ⟨fault, hrun⟩
  | ok environment =>
    rw [hbind] at hrun
    exact .inr ⟨environment, hrun⟩

end Query

/-- A node uses the variables and services of a receiver, and reports on it as a query. -/
structure Node.Tells (node : Node) (contextTy : Ty) (admissible : Value → Prop)
    (test : Value → Bool) (receiver : Node) : Prop where
  ty : node.ty = .boolean
  constants : node.constants = receiver.constants
  services : node.services = receiver.services
  reports : ∀ services store,
    Reports admissible test ((Query.ofNode receiver contextTy).run services store)
      ((Query.ofNode node contextTy).run services store)

namespace Node

variable {contextTy : Ty} {admissible : Value → Prop} {receiver node other : Node}
  {test second : Value → Bool} {plan : Plan}

/-- A plan that reports on the plan of the receiver reports on it as a query. -/
theorem tells_of_reports (hty : plan.ty = .boolean)
    (h : ∀ services environment, Reports admissible test
      (receiver.plan.eval services environment) (plan.eval services environment)) :
    (receiver.map fun _ => plan).Tells contextTy admissible test receiver where
  ty := hty
  constants := rfl
  services := rfl
  reports services store := by
    rcases Query.run_of_alike receiver contextTy services store with
      ⟨fault, hrun⟩ | ⟨environment, hrun⟩
    · rw [hrun receiver rfl rfl, hrun (receiver.map fun _ => plan) rfl rfl]
      exact ⟨fun _ h => h, fun _ h => nomatch h⟩
    · rw [hrun receiver rfl rfl, hrun (receiver.map fun _ => plan) rfl rfl]
      exact h services environment

/-- Variables that are kept once stay as they are when they are joined to themselves. -/
theorem extend_constants_self {constants : Entries Value} (h : (Entries.names constants).Nodup) :
    Entries.extend constants constants = constants := by
  have hkeeps : ∀ more : List (String × Value), (∀ entry ∈ more, entry ∈ constants) →
      Entries.extend constants more = constants := by
    intro more
    induction more with
    | nil => exact fun _ => rfl
    | cons entry rest ih =>
      intro hmore
      obtain ⟨hentry, hrest⟩ := List.forall_mem_cons.mp hmore
      rw [Entries.extend_cons,
        Entries.insert_of_find? (Entries.find?_of_mem_of_nodup h hentry), ih hrest]
  exact hkeeps constants fun _ hentry => hentry

/-- Services that are there already are not added. -/
theorem foldl_addService_self {services more : List String} (h : ∀ name ∈ more, name ∈ services) :
    more.foldl addService services = services := by
  induction more with
  | nil => rfl
  | cons name rest ih =>
    obtain ⟨hname, hrest⟩ := List.forall_mem_cons.mp h
    rw [List.foldl_cons, addService, if_pos hname]
    exact ih hrest

/-- The disjunction of two nodes that report on one receiver. -/
theorem Tells.or (hreceiver : receiver.CapturesOnce)
    (h : node.Tells contextTy admissible test receiver)
    (hother : other.Tells contextTy admissible second receiver) :
    (node.join other (.operator .or node.plan other.plan .boolean)).Tells contextTy admissible
      (fun value => test value || second value) receiver := by
  have hconstants :
      (node.join other (.operator .or node.plan other.plan .boolean)).constants =
        receiver.constants := by
    unfold join
    rw [h.constants, hother.constants]
    exact extend_constants_self hreceiver
  have hservices :
      (node.join other (.operator .or node.plan other.plan .boolean)).services =
        receiver.services := by
    unfold join
    rw [h.services, hother.services]
    exact foldl_addService_self fun _ hname => hname
  refine ⟨rfl, hconstants, hservices, fun services store => ?_⟩
  have hfirst := h.reports services store
  have hsecond := hother.reports services store
  rcases Query.run_of_alike receiver contextTy services store with
    ⟨fault, hrun⟩ | ⟨environment, hrun⟩
  · rw [hrun receiver rfl rfl, hrun _ hconstants hservices]
    exact ⟨fun _ h => h, fun _ h => nomatch h⟩
  · rw [hrun receiver rfl rfl] at hfirst hsecond ⊢
    rw [hrun node h.constants h.services] at hfirst
    rw [hrun other hother.constants hother.services] at hsecond
    rw [hrun _ hconstants hservices]
    exact Plan.reports_or hfirst hsecond

end Node

namespace Method

variable {literals : List Literal} {set : List Value} {ty : Ty}

/-- The list of `in` holds the values of its literals, which are texts and integers. -/
theorem values_of_listed (h : (literals.map Expr.literal).mapM listed = .ok set) :
    set = literals.map Literal.value ∧
      ∀ literal ∈ literals, (∃ s, literal = .text s) ∨ ∃ n, literal = .integer n := by
  induction literals generalizing set with
  | nil =>
    cases h
    exact ⟨rfl, nofun⟩
  | cons literal rest ih =>
    rw [List.map_cons, List.mapM_cons] at h
    cases hrest : (rest.map Expr.literal).mapM listed with
    | error cause =>
      rw [hrest] at h
      cases literal <;> cases h
    | ok values =>
      rw [hrest] at h
      obtain ⟨rfl, hsorts⟩ := ih hrest
      cases literal with
      | integer n =>
        cases h
        exact ⟨rfl, List.forall_mem_cons.mpr ⟨.inr ⟨n, rfl⟩, hsorts⟩⟩
      | text s =>
        cases h
        exact ⟨rfl, List.forall_mem_cons.mpr ⟨.inl ⟨s, rfl⟩, hsorts⟩⟩
      | decimal _ | boolean _ | null => cases h

/-- A list of `in` is one of texts or one of integers. -/
theorem meets_of_listedTy {listedAs : Ty} (h : listedTy (literals.map Literal.value) = .ok listedAs)
    (hsorts : ∀ literal ∈ literals, (∃ s, literal = .text s) ∨ ∃ n, literal = .integer n)
    (hfits : (if listedAs = .string then ty.isString else ty.intKind?.isSome) = true ∨ ty = .any) :
    ty.Meets literals := by
  unfold listedTy at h
  split at h
  · rename_i htexts
    cases h
    rw [if_pos rfl] at hfits
    refine .texts hfits fun literal hliteral => (hsorts literal hliteral).resolve_right ?_
    rintro ⟨n, rfl⟩
    exact absurd (List.all_eq_true.mp htexts _ (List.mem_map_of_mem hliteral)) nofun
  · split at h
    · rename_i hintegers
      cases h
      rw [if_neg nofun] at hfits
      refine .integers hfits fun literal hliteral => (hsorts literal hliteral).resolve_left ?_
      rintro ⟨s, rfl⟩
      exact absurd (List.all_eq_true.mp hintegers _ (List.mem_map_of_mem hliteral)) nofun
    · cases h

end Method

namespace Scope

variable {scope : Scope} {contextTy : Ty} {session final : Session} {expr : Expr}
  {literals others : List Literal} {first literal : Literal} {inner receiver membership : Node}

/-- The expressions of the arguments of a call are those that it is given. -/
theorem mapM_callArguments {α : Type} (f : Expr → Except Unsupported α) (capture : Capture)
    (fields : FieldCompiler) (arguments : List Expr) :
    ((scope.callArguments capture fields arguments).mapM fun argument => f argument.expr) =
      arguments.mapM f := by
  induction arguments with
  | nil => rfl
  | cons expr rest ih =>
    unfold callArguments
    rw [List.mapM_cons, List.mapM_cons, ih]

/-- What is one of a list of literals is a text, an integer or dynamic, like the literals. -/
theorem compile_isOneOf (hmethods : scope.methods = .standard)
    (h : (scope.compile inner (expr.isOneOf literals)) session = .ok membership final) :
    ∃ receiver, (scope.compile inner expr) session = .ok receiver final ∧
      receiver.ty.Meets literals ∧
      membership = receiver.map fun plan => plan.inSet (literals.map Literal.value) := by
  unfold compile Expr.isOneOf compileExpr at h
  obtain ⟨receiver, between, hreceiver, hcall⟩ := bind_eq_ok.mp h
  have hfind : scope.methods.find? "in" =
      some ⟨"in", .range 1 none, .caller, false, Method.inSet⟩ := by
    rw [hmethods]
    rfl
  unfold MethodLibrary.call at hcall
  rw [hfind] at hcall
  obtain ⟨_, _, hset⟩ := check_eq_ok.mp hcall
  change Method.inSet _ between = _ at hset
  unfold Method.inSet at hset
  rw [mapM_callArguments] at hset
  obtain ⟨set, hlisted, hty⟩ := check_eq_ok.mp hset
  obtain ⟨listedAs, hlistedAs, hbuilt⟩ := check_eq_ok.mp hty
  obtain ⟨rfl, hsorts⟩ := Method.values_of_listed (eq_ok_of_mapError hlisted)
  dsimp only at hbuilt
  generalize hfits : (if listedAs = .string then receiver.ty.isString
    else receiver.ty.intKind?.isSome) = fits at hbuilt
  split at hbuilt
  · cases hbuilt
  · rename_i hrefused
    obtain ⟨rfl, rfl⟩ := pure_eq_ok.mp hbuilt
    refine ⟨receiver, hreceiver, ?_, rfl⟩
    refine Method.meets_of_listedTy (eq_ok_of_mapError hlistedAs) hsorts ?_
    rw [hfits]
    by_contra hneither
    rw [not_or, Bool.not_eq_true] at hneither
    exact hrefused (by rw [hneither.1, decide_eq_true hneither.2]; rfl)

/-- Values of a receiver: of integers, those of their type. -/
def Admits (scope : Scope) (receiver : Node) (value : Value) : Prop :=
  receiver.ty.intKind?.isSome = true → value.Conforms scope.schema.members receiver.ty

section Chain

variable (hmethods : scope.methods.Steady)
  (hreceiver : (scope.compile (context contextTy) expr) session = .ok receiver final)

include hmethods hreceiver

/-- In every session, the equality with a literal of its sort reports on an expression. -/
theorem compile_equals (hmeets : receiver.ty.Meets [literal]) (start : Session) :
    ∃ node last,
      (scope.compile (context contextTy) (expr.equals literal)) start = .ok node last ∧
        node.Tells contextTy (scope.Admits receiver)
          (fun value => Value.same (literal.opposite receiver.ty) value) receiver := by
  obtain ⟨node, last, hnode, hty, hconstants, hservices, hrun⟩ :=
    compile_in_session hmethods hreceiver start
  have hsort : node.plan.ty.Meets [literal] := by
    change node.ty.Meets [literal]
    rwa [hty]
  obtain ⟨plan, haccepted, hboolean, hreports⟩ := Plan.reconcile_literal scope.schema hsort
  have htells : (node.map fun _ => plan).Tells contextTy (scope.Admits node)
      (fun value => Value.same (literal.opposite node.ty) value) node :=
    Node.tells_of_reports hboolean hreports
  refine ⟨node.map fun _ => plan, last, ?_, htells.ty, hconstants, hservices,
    fun services store => ?_⟩
  · unfold compile Expr.equals compileExpr
    refine bind_eq_ok.mpr ⟨node, last, hnode, bind_eq_ok.mpr ⟨literal.node, last, ?_, ?_⟩⟩
    · unfold compileExpr
      rfl
    · rw [haccepted]
      rfl
  · have hreport := htells.reports services store
    unfold Admits at hreport ⊢
    rwa [hrun, hty] at hreport

/-- A chain of equalities reports on the expression, which is run again for each of them. -/
theorem compile_chain (honce : receiver.CapturesOnce) {chain : Expr} {node : Node}
    {middle : Session} {test : Value → Bool} (hmeets : receiver.ty.Meets others)
    (hchain : (scope.compile (context contextTy) chain) session = .ok node middle)
    (htells : node.Tells contextTy (scope.Admits receiver) test receiver) :
    ∃ result last,
      (scope.compile (context contextTy)
        (others.foldl (fun chain literal => .binary .or chain (expr.equals literal)) chain))
          session = .ok result last ∧
        result.Tells contextTy (scope.Admits receiver)
          (fun value => test value ||
            others.any fun literal => Value.same (literal.opposite receiver.ty) value)
          receiver := by
  induction others generalizing chain node middle test with
  | nil =>
    refine ⟨node, middle, hchain, htells.ty, htells.constants, htells.services,
      fun services store => (htells.reports services store).congr ?_⟩
    funext value
    exact Bool.or_false _
  | cons literal rest ih =>
    obtain ⟨next, last, hnext, htellsNext⟩ := compile_equals hmethods hreceiver
      (hmeets.mono fun other hother => List.mem_cons.mpr (.inl (List.mem_singleton.mp hother)))
      middle
    have hcompiled :
        (scope.compile (context contextTy) (.binary .or chain (expr.equals literal))) session =
          .ok (node.join next (.operator .or node.plan next.plan .boolean)) last := by
      have haccepted : Plan.reconcile scope.schema .or node.plan next.plan =
          .ok (.operator .or node.plan next.plan .boolean) := by
        have hpredicate : ∀ {plan : Plan}, plan.ty = .boolean → plan.asPredicate? = some plan := by
          intro plan hplan
          unfold Plan.asPredicate?
          rw [hplan]
        change Plan.reconcileLogical .or node.plan next.plan = _
        unfold Plan.reconcileLogical
        rw [hpredicate htells.ty, hpredicate htellsNext.ty]
      unfold compile compileExpr
      refine bind_eq_ok.mpr ⟨node, middle, hchain, bind_eq_ok.mpr ⟨next, last, hnext, ?_⟩⟩
      rw [haccepted]
      rfl
    obtain ⟨result, after, hresult, hreports⟩ := ih
      (hmeets.mono fun other hother => List.mem_cons_of_mem _ hother) hcompiled
      (htells.or honce htellsNext)
    refine ⟨result, after, hresult, hreports.ty, hreports.constants, hreports.services,
      fun services store => (hreports.reports services store).congr ?_⟩
    funext value
    rw [List.any_cons, Bool.or_assoc]

end Chain

/-- Wherever membership in a list of literals compiles, so does the chain of equalities with them.
Both use the variables and services of the receiver, and both fail where it fails. Membership tells
whether the value of the receiver is one of the literals, and the chain whether it is what one of
them stands for opposite the receiver. So they agree, unless a text with a shape stands opposite a
dynamic receiver. -/
theorem isOneOf_tells (hmethods : scope.methods = .standard)
    (h : (scope.compile (context contextTy) (expr.isOneOf (first :: others))) session =
      .ok membership final) :
    ∃ receiver chain last,
      (scope.compile (context contextTy) expr) session = .ok receiver final ∧
      receiver.ty.Meets (first :: others) ∧
      (scope.compile (context contextTy) (expr.equalsOneOf first others)) session =
        .ok chain last ∧
      membership.Tells contextTy (fun _ => True)
        (fun value => (first :: others).any fun literal => Value.same literal.value value)
        receiver ∧
      chain.Tells contextTy (scope.Admits receiver)
        (fun value => (first :: others).any fun literal =>
          Value.same (literal.opposite receiver.ty) value) receiver ∧
      ((receiver.ty = .any → ∀ literal ∈ first :: others, literal.isShaped = false) →
        ∀ services store,
          (∀ value, (Query.ofNode receiver contextTy).run services store = .ok value →
            scope.Admits receiver value) →
          Value.Agree ((Query.ofNode membership contextTy).run services store)
            ((Query.ofNode chain contextTy).run services store)) := by
  obtain ⟨receiver, hreceiver, hmeets, rfl⟩ := compile_isOneOf hmethods h
  have hsteady : scope.methods.Steady := hmethods ▸ MethodLibrary.steady_standard
  have honce : receiver.CapturesOnce := by
    have hlibrary : scope.methods.CapturesOnce := hmethods ▸ MethodLibrary.capturesOnce_standard
    have hcontext : (context contextTy).CapturesOnce := List.nodup_nil
    exact compileExpr_once hlibrary (fieldCompiler_once hlibrary) hcontext expr _ _ _ hreceiver
  obtain ⟨node, middle, hnode, htells⟩ := compile_equals hsteady hreceiver
    (hmeets.mono fun other hother => List.mem_cons.mpr (.inl (List.mem_singleton.mp hother)))
    session
  obtain ⟨chain, last, hchain, htellsChain⟩ := compile_chain hsteady hreceiver honce
    (hmeets.mono fun other hother => List.mem_cons_of_mem _ hother) hnode htells
  have hmembership : (receiver.map fun plan =>
      plan.inSet ((first :: others).map Literal.value)).Tells contextTy (fun _ => True)
        (fun value => (first :: others).any fun literal => Value.same literal.value value)
        receiver := by
    refine Node.tells_of_reports rfl fun services environment =>
      (Plan.reports_inSet receiver.plan _).congr ?_
    funext value
    rw [List.any_map]
    rfl
  refine ⟨receiver, chain, last, hreceiver, hmeets, hchain, hmembership, htellsChain,
    fun hshapes services store hadmits => ?_⟩
  have hstands : ∀ value,
      ((first :: others).any fun literal => Value.same literal.value value) =
        (first :: others).any fun literal => Value.same (literal.opposite receiver.ty) value := by
    intro value
    rw [Bool.eq_iff_iff, List.any_eq_true, List.any_eq_true]
    refine exists_congr fun literal => and_congr_right fun hliteral => ?_
    rw [Literal.opposite_eq_value fun hty => hshapes hty literal hliteral]
  have hplain := (htellsChain.reports services store).congr (funext hstands)
  refine Reports.agree ?_ hplain hadmits
  obtain ⟨hfails, htells⟩ := hmembership.reports services store
  exact ⟨hfails, fun value hvalue _ => htells value hvalue trivial⟩

end Scope

/-- A host with a dynamic note and a size of 16 bits. -/
def noteHost : Host where
  schema := .ofParts "Query" [] [.ofFields "Query" none [
    .ofMember "note" .any, .ofMember "size" (.nullable (.int .i16))]] []
  methods := .standard
  depth := 1

namespace Scope

/-- A size of 16 bits may be compared with an integer beyond them. The text of a date is in a list
that holds it, but it does not equal the date. -/
theorem isOneOf_tells_note :
    (∃ membership chain last,
      ((noteHost.scope []).compile (context (.object "Query"))
        ((Expr.identifier "size").isOneOf [.integer 70000, .integer 5])) default =
          .ok membership default ∧
      ((noteHost.scope []).compile (context (.object "Query"))
        ((Expr.identifier "size").equalsOneOf (.integer 70000) [.integer 5])) default =
          .ok chain last ∧
      Value.Agree
        ((Query.ofNode membership (.object "Query")).run [] (.object "Query" [("size", .int 5)]))
        ((Query.ofNode chain (.object "Query")).run [] (.object "Query" [("size", .int 5)]))) ∧
    ∃ membership chain last,
      ((noteHost.scope []).compile (context (.object "Query"))
        ((Expr.identifier "note").isOneOf [.text "2024-01-01"])) default =
          .ok membership default ∧
      ((noteHost.scope []).compile (context (.object "Query"))
        ((Expr.identifier "note").equalsOneOf (.text "2024-01-01") [])) default = .ok chain last ∧
      (Query.ofNode membership (.object "Query")).run []
          (.object "Query" [("note", .text "2024-01-01")]) = .ok (.boolean true) ∧
      (Query.ofNode chain (.object "Query")).run []
          (.object "Query" [("note", .text "2024-01-01")]) = .ok (.boolean false) := by
  constructor
  · have hin : ((noteHost.scope []).compile (context (.object "Query"))
        ((Expr.identifier "size").isOneOf [.integer 70000, .integer 5])) default =
          .ok _ default := rfl
    obtain ⟨receiver, chain, last, hreceiver, -, hchain, -, -, hagree⟩ := isOneOf_tells rfl hin
    have hsize : ((noteHost.scope []).compile (context (.object "Query"))
        (Expr.identifier "size")) default = .ok _ default := rfl
    cases hreceiver.symm.trans hsize
    refine ⟨_, chain, last, hin, hchain, hagree nofun [] _ fun value hvalue _ => ?_⟩
    cases hvalue
    exact .int rfl (by decide)
  · have hin : ((noteHost.scope []).compile (context (.object "Query"))
        ((Expr.identifier "note").isOneOf [.text "2024-01-01"])) default = .ok _ default := rfl
    obtain ⟨receiver, chain, last, hreceiver, -, hchain, hmembership, hequals, -⟩ :=
      isOneOf_tells rfl hin
    have hnote : ((noteHost.scope []).compile (context (.object "Query"))
        (Expr.identifier "note")) default = .ok _ default := rfl
    cases hreceiver.symm.trans hnote
    refine ⟨_, chain, last, hin, hchain, ?_, ?_⟩
    · exact (hmembership.reports [] _).tells (.text "2024-01-01") rfl trivial
    · exact (hequals.reports [] _).tells (.text "2024-01-01") rfl nofun

end Scope

end TypedQuery
