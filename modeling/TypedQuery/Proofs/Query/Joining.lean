import TypedQuery.Proofs.Capture.Scopes
import TypedQuery.Proofs.Plan.Filtering
import TypedQuery.Proofs.Plan.Relating
import TypedQuery.Proofs.Query.Answers
import TypedQuery.Proofs.Query.Preservation
import TypedQuery.Proofs.Splicing.Bodies

/-!
# Queries in queries

What an expression gives as a query of its own, and as a part of a larger one. The larger query
keeps the variables of its parts, a later one in the place of an earlier one of the same name. A
part gives what it gives alone if its variables are kept at the same values. The sum of two
expressions with the same variables is the sum of what they give.
-/

namespace TypedQuery

open Halting

namespace Query

variable {node other : Node} {contextTy : Ty} {services : Services} {context value : Value}
  {name : String} {plan : Plan}

/-- The other query keeps the variables of a query at the same values. -/
def SharedBy (query other : Query) : Prop :=
  ∀ name ∈ query.constants, Entries.find? other.kept name = Entries.find? query.kept name

/-- The context is bound in the environment of a query. -/
theorem lookup_environmentOf_context (node : Node) (context : Value) :
    (environmentOf node context).lookup contextName = some context := by
  have hmem : (contextName, context) ∈ environmentOf node context :=
    List.mem_append_right _ (List.mem_singleton.mpr rfl)
  obtain ⟨found, hfound⟩ := Entries.exists_find?_of_mem hmem
  rcases mem_of_lookup_environmentOf hfound with ⟨-, rfl⟩ | ⟨entry, -, hname, -⟩
  · exact hfound
  · exact absurd hname (contextName_ne_constantName _)

/-- A part of a query gives what it gives alone if its variables are kept at the same values. -/
theorem eval_of_sharedBy {A : Assumptions} (h : node.Sound A (.only contextName contextTy))
    (hshared : (ofNode node contextTy).SharedBy (ofNode other contextTy)) :
    node.plan.eval services (environmentOf other context) =
      node.plan.eval services (environmentOf node context) := by
  refine Plan.eval_eq_of_free node.plan fun name hname => ?_
  rcases (closed_ofNode h).parameters name hname with rfl | ⟨value, hvalue⟩
  · rw [lookup_environmentOf_context, lookup_environmentOf_context]
  · have hconstant := (List.of_mem_zip hvalue).1
    obtain ⟨found, hfound⟩ := Entries.exists_find?_of_mem (List.mem_reverse.mpr hvalue)
    rw [lookup_environmentOf ((hshared name hconstant).trans hfound), lookup_environmentOf hfound]

/-- With its services, a query gives the value of its plan. -/
theorem run_ofNode_eq_ok : (ofNode node contextTy).run services context = .ok value ↔
    (∀ service ∈ node.services, Entries.contains services service = true) ∧
      node.plan.eval services (environmentOf node context) = .ok value := by
  constructor
  · intro h
    have hservices : ∀ service ∈ node.services, Entries.contains services service = true := by
      intro service hservice
      by_contra hmissing
      obtain ⟨missing, -, -, hrun⟩ := run_of_missing node contextTy context
        ⟨service, hservice, Bool.eq_false_iff.mpr hmissing⟩
      cases h.symm.trans (hrun node.plan)
    exact ⟨hservices, (run_ofNode hservices).symm.trans h⟩
  · rintro ⟨hservices, h⟩
    exact (run_ofNode hservices).trans h

/-- Naming the parameters of variables goes through an insertion. -/
theorem map_insert (entries : Entries Value) (name : String) (value : Value) :
    (Entries.insert entries name value).map (fun entry => (constantName entry.1, entry.2)) =
      Entries.insert (entries.map fun entry => (constantName entry.1, entry.2))
        (constantName name) value := by
  induction entries with
  | nil => rfl
  | cons entry rest ih =>
    rw [List.map_cons]
    unfold Entries.insert
    by_cases hname : entry.1 = name
    · rw [if_pos hname, if_pos (congrArg constantName hname)]
      rfl
    · rw [if_neg hname, if_neg fun h => hname (constantName_injective h), ← ih]
      rfl

/-- Naming the parameters of variables goes through further insertions. -/
theorem map_extend (entries more : Entries Value) :
    (Entries.extend entries more).map (fun entry => (constantName entry.1, entry.2)) =
      Entries.extend (entries.map fun entry => (constantName entry.1, entry.2))
        (more.map fun entry => (constantName entry.1, entry.2)) := by
  induction more generalizing entries with
  | nil => rfl
  | cons entry rest ih => exact (ih _).trans (congrArg (Entries.extend · _) (map_insert _ _ _))

/-- Variables that are joined to themselves are kept at their values. -/
theorem lookup_environmentOf_join (h : other.constants = node.constants) (name : String) :
    (environmentOf (node.join other plan) context).lookup name =
      (environmentOf node context).lookup name := by
  unfold environmentOf Node.join
  rw [h, map_extend, List.lookup_append, List.lookup_append]
  exact congrArg (Option.or · _) (Entries.find?_reverse_extend_append _ [])

end Query

/-- The value of an arithmetic operator. -/
theorem Plan.eval_arithmetic {op : Operator} {left right : Plan} {ty : Ty} {a b : Value}
    {services : Services} {environment : Environment} (hop : op.isArithmetic = true)
    (hleft : left.eval services environment = .ok a)
    (hright : right.eval services environment = .ok b) :
    (operator op left right ty).eval services environment = Value.arithmetic op a b ty := by
  rw [eval_operator_of_isArithmetic hop, hleft, hright]
  rfl

namespace Scope

variable {scope : Scope} {contextTy : Ty} {services : Services} {store x y z : Value}
  {session final final' : Session} {left right : Expr} {a b : Node}

/-- In a session, the expression compiles in the context of the host to a query that gives the
value. -/
def Gives (scope : Scope) (contextTy : Ty) (session : Session) (services : Services)
    (store : Value) (expr : Expr) (value : Value) : Prop :=
  ∃ node final, (scope.compile (context contextTy) expr) session = .ok node final ∧
    (Query.ofNode node contextTy).run services store = .ok value

/-- An expression gives one value at most. -/
theorem Gives.unique {expr : Expr} (hx : scope.Gives contextTy session services store expr x)
    (hy : scope.Gives contextTy session services store expr y) : x = y := by
  obtain ⟨node, final, hnode, hrun⟩ := hx
  obtain ⟨node', final', hnode', hrun'⟩ := hy
  cases hnode.symm.trans hnode'
  exact Except.ok.inj (hrun.symm.trans hrun')

/-- The node of an expression is sound. -/
theorem sound_of_compile (hmethods : scope.methods.Sound .none) {expr : Expr} {node : Node}
    (h : (scope.compile (context contextTy) expr) session = .ok node final) :
    node.Sound .none (.only contextName contextTy) :=
  have hscope := (sound_none .none hmethods).1
  (compileExpr_ensures hscope (sound_fieldCompiler hscope) (good_context contextTy) expr
    (fun _ _ => trivial) _ _ _ h).toSound

/-- In another session, an expression compiles to a query that gives the same, with the same
variables and services. -/
theorem compile_in_session (hmethods : scope.methods.Steady) {expr : Expr} {node : Node}
    (h : (scope.compile (context contextTy) expr) session = .ok node final) (other : Session) :
    ∃ node' final', (scope.compile (context contextTy) expr) other = .ok node' final' ∧
      node'.ty = node.ty ∧ node'.constants = node.constants ∧ node'.services = node.services ∧
      ∀ services store, (Query.ofNode node' contextTy).run services store =
        (Query.ofNode node contextTy).run services store := by
  have hfirst := apart_contextName session.parameters
  have hsecond := apart_contextName other.parameters
  have huniform : scope.methods.Uniform (.renamed hfirst hsecond) :=
    hmethods.nameless hfirst hsecond
  have hcapture := Likeness.parameter_alike hfirst hsecond
  have hlockstep := compileExpr_lockstep hcapture huniform
    (fieldCompiler_lockstep hcapture huniform)
    (Likeness.root_alike hfirst hsecond contextTy) expr
  have hsessions : (Likeness.renamed hfirst hsecond).sessions session other := ⟨0, rfl, rfl⟩
  rcases hlockstep.outcome hsessions with
    ⟨first, node', _, final', hrun, hrun', halike, -⟩ | ⟨halt, _, _, hrun, -⟩
  · cases h.symm.trans hrun
    have hclosed := Query.closed_ofNode (sound_of_compile hmethods.sound h)
    have hrenamed : (Query.ofNode node contextTy).Renamed (.ofNode node' contextTy) :=
      ⟨_, _, node, node', contextTy, halike, rfl, rfl⟩
    exact ⟨node', final', hrun', halike.ty_eq.symm, halike.constants.symm, halike.services.symm,
      fun services store => (hrenamed.run_eq hclosed services store).symm⟩
  · cases h.symm.trans hrun

/-- The sum of two counts with the same variables gives the sum of what they give. -/
theorem gives_add (hmethods : scope.methods.Steady)
    (hleft : (scope.compile (context contextTy) left) session = .ok a final)
    (hright : (scope.compile (context contextTy) right) session = .ok b final')
    (hta : a.ty = .int .i32) (htb : b.ty = .int .i32) (hconstants : b.constants = a.constants)
    (hx : (Query.ofNode a contextTy).run services store = .ok x)
    (hy : (Query.ofNode b contextTy).run services store = .ok y)
    (hsum : Value.arithmetic .add x y (.int .i32) = .ok z) :
    scope.Gives contextTy session services store (.binary .add left right) z := by
  obtain ⟨b', final'', hright', hty, hconstants', hservices', hrun⟩ :=
    compile_in_session hmethods hright final
  have hreconcile : Plan.reconcile scope.schema .add a.plan b'.plan =
      .ok (.operator .add a.plan b'.plan a.ty) :=
    Plan.reconcile_of_numeric scope.schema rfl (hta.trans (hty.trans htb).symm)
      (by rw [show a.plan.ty = _ from hta]; rfl)
  obtain ⟨hservices, hleftValue⟩ := Query.run_ofNode_eq_ok.mp hx
  obtain ⟨hservicesRight, hrightValue⟩ := Query.run_ofNode_eq_ok.mp ((hrun _ _).trans hy)
  refine ⟨a.join b' (.operator .add a.plan b'.plan a.ty), final'', ?_, ?_⟩
  · unfold compile compileExpr
    refine bind_eq_ok.mpr ⟨a, final, hleft, bind_eq_ok.mpr ⟨b', final'', hright', ?_⟩⟩
    rw [hreconcile]
    rfl
  · refine Query.run_ofNode_eq_ok.mpr ⟨fun service hservice => ?_, ?_⟩
    · exact (Node.mem_foldl_addService.mp hservice).elim (hservices service)
        (hservicesRight service)
    · have hsame : ∀ name, (Query.environmentOf (a.join b' (.operator .add a.plan b'.plan a.ty))
          store).lookup name = (Query.environmentOf a store).lookup name :=
        Query.lookup_environmentOf_join (hconstants'.trans hconstants)
      have henvironment : Query.environmentOf b' store = Query.environmentOf a store := by
        unfold Query.environmentOf
        rw [hconstants', hconstants]
      rw [henvironment] at hrightValue
      refine (Plan.eval_arithmetic rfl ?_ ?_).trans ((congrArg _ hta).trans hsum)
      · exact (Plan.eval_eq_of_free a.plan fun name _ => hsame name).trans hleftValue
      · exact (Plan.eval_eq_of_free b'.plan fun name _ => hsame name).trans hrightValue

end Scope

end TypedQuery
