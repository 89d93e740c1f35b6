import TypedQuery.Proofs.Capture.Once
import TypedQuery.Proofs.Query.Dividing

/-!
# Expressions on items

The argument of a method on a list is compiled on a parameter that stands for an item. What it
gives there is what it gives as a query of its own in the context of the item: nothing else of the
query around it reaches it.
-/

namespace TypedQuery

open Halting

/-- What a node with one parameter gives depends on that and on the variables that it captures. -/
theorem Node.Sound.eval_congr {A : Assumptions} {node : Node} {name : String} {ty : Ty}
    {services : Services} {environment other : Environment} (h : node.Sound A (.only name ty))
    (hname : environment.lookup name = other.lookup name)
    (hvars : ∀ x ∈ Entries.names node.constants,
      environment.lookup (constantName x) = other.lookup (constantName x)) :
    node.plan.eval services environment = node.plan.eval services other := by
  refine Plan.eval_eq_of_free node.plan fun reference hmem => ?_
  obtain ⟨_, ⟨rfl, -⟩ | ⟨x, -, rfl, hx, -, -⟩⟩ := h.typed.exists_of_mem_free reference hmem
  · exact hname
  · exact hvars x hx

/-- The item is not a variable. -/
theorem lookup_item_constantName {environment : Environment} {item : Value} (n : Nat) (x : String) :
    ((parameterName n, item) :: environment).lookup (constantName x) =
      environment.lookup (constantName x) := by
  have hne : constantName x ≠ parameterName n := fun h => constantName_ne_fresh n x h.symm
  rw [List.lookup_cons, beq_false_of_ne hne]

/-- The environment has the variables of a node at its values. -/
def Node.KeptIn (node : Node) (environment : Environment) : Prop :=
  ∀ x ∈ Entries.names node.constants, environment.lookup (constantName x) =
    (Query.environmentOf node .null).lookup (constantName x)

/-- A query has its own variables. -/
theorem Node.keptIn_environmentOf (node : Node) (store : Value) :
    node.KeptIn (Query.environmentOf node store) := by
  intro x hx
  obtain ⟨value, hvalue⟩ := Query.exists_find?_kept hx .any
  rw [Query.lookup_environmentOf hvalue, Query.lookup_environmentOf hvalue]

/-- Where the variables of a joined node are, those of the second one are. -/
theorem Node.KeptIn.of_join_right {a b : Node} {environment : Environment} {plan : Plan}
    (h : (a.join b plan).KeptIn environment) (honce : a.CapturesOnce) :
    b.KeptIn environment := by
  intro x hx
  have hjoined : x ∈ Entries.names (a.join b plan).constants :=
    (Node.join_extends_right a b plan).constants x hx
  rw [h x hjoined]
  exact Query.lookup_environmentOf_join_right honce hx .null .null

/-- On an item, a node gives the same wherever its variables are. -/
theorem Node.Sound.eval_keptIn {A : Assumptions} {node : Node} {n : Nat} {element : Ty}
    {environment : Environment} (h : node.Sound A (.only (parameterName n) element))
    (hkept : node.KeptIn environment) (services : Services) (item : Value) :
    node.plan.eval services ((parameterName n, item) :: environment) =
      node.plan.eval services ((parameterName n, item) :: Query.environmentOf node item) := by
  refine h.eval_congr ?_ fun x hx => ?_
  · rw [List.lookup_cons_self, List.lookup_cons_self]
  · rw [lookup_item_constantName, lookup_item_constantName, hkept x hx,
      node.keptIn_environmentOf item x hx]

namespace Scope

variable {scope : Scope} {element : Ty} {p : Expr} {session final : Session}
  {test : Node} {services : Services} {environment : Environment} {item value : Value}

/-- What compiles on an item refers to the item and to captured variables. -/
theorem sound_on_item (hmethods : scope.methods.Sound .none)
    (h : (scope.compile (itemNode element session) p) (inside session) = .ok test final) :
    test.Sound .none (.only (parameterName session.parameters) element) := by
  have hscope := (sound_none .none hmethods).1
  have hitem : (itemNode element session).Good .none
      (.only (parameterName session.parameters) element) :=
    ⟨⟨fun _ h => absurd h List.not_mem_nil, .param (Or.inl ⟨rfl, rfl⟩)⟩, rfl⟩
  exact (compileExpr_ensures hscope (sound_fieldCompiler hscope) hitem p (fun _ _ => trivial)
    _ _ _ h).toSound

/-- Two nodes that are alike, one on an item and one in the context of the item, have the same
values. -/
theorem eval_on_item {n m : Nat} {own : Node}
    (halike : test.Alike (.renamed (apart_parameterName n) (apart_contextName m)) own)
    (hsound : test.Sound .none (.only (parameterName n) element)) (services : Services)
    (item : Value) :
    test.plan.eval services ((parameterName n, item) :: Query.environmentOf test item) =
      own.plan.eval services (Query.environmentOf own item) := by
  have henvironment : Query.environmentOf own item = Query.environmentOf test item := by
    unfold Query.environmentOf
    rw [halike.constants]
  rw [henvironment]
  refine halike.plan.eval_eq (fun h => h) fun name hname name' hnames => ?_
  obtain ⟨_, ⟨rfl, -⟩ | ⟨x, -, rfl, hx, -, -⟩⟩ := hsound.typed.exists_of_mem_free name hname
  · -- The item is what the query of its own has as its context.
    obtain rfl : name' = contextName := by
      rcases hnames with ⟨-, rfl⟩ | ⟨i, hi, -⟩ | ⟨x, hx, -⟩
      · rfl
      · exact absurd hi (apart_parameterName n i)
      · exact absurd hx (constantName_ne_fresh _ x)
    exact ⟨item, List.lookup_cons_self, Query.lookup_environmentOf_context test item⟩
  · obtain rfl : name' = constantName x := by
      rcases hnames with ⟨hx, -⟩ | ⟨i, hi, -⟩ | ⟨y, hy, rfl⟩
      · exact absurd hx.symm (constantName_ne_fresh _ x)
      · exact absurd hi.symm (constantName_ne_fresh _ x)
      · exact hy.symm
    obtain ⟨value, hvalue⟩ := Query.exists_find?_kept hx element
    have hfound := Query.lookup_environmentOf hvalue item
    exact ⟨value, (lookup_item_constantName _ x).trans hfound, hfound⟩

/-- What compiles on an item compiles in the context of the item, and has the same values. -/
theorem compile_on_item (hmethods : scope.methods.Steady)
    (h : (scope.compile (itemNode element session) p) (inside session) = .ok test final)
    (other : Session) :
    ∃ own last, (scope.compile (context element) p) other = .ok own last ∧
      own.services = test.services ∧
      ∀ (services : Services) (item : Value),
        test.plan.eval services ((parameterName session.parameters, item) ::
            Query.environmentOf test item) =
          own.plan.eval services (Query.environmentOf own item) := by
  have hfirst := apart_parameterName session.parameters
  have hsecond := apart_contextName other.parameters
  have huniform : scope.methods.Uniform (.renamed hfirst hsecond) :=
    hmethods.nameless hfirst hsecond
  have hcapture := Likeness.parameter_alike hfirst hsecond
  have hlockstep := compileExpr_lockstep hcapture huniform
    (fieldCompiler_lockstep hcapture huniform)
    (Likeness.root_alike hfirst hsecond element) p
  have hsessions : (Likeness.renamed hfirst hsecond).sessions (inside session) other :=
    ⟨0, rfl, rfl⟩
  rcases hlockstep.outcome hsessions with
    ⟨first, own, _, last, hrun, hrun', halike, -⟩ | ⟨halt, _, _, hrun, -⟩
  · cases h.symm.trans hrun
    exact ⟨own, last, hrun', halike.services.symm,
      eval_on_item halike (sound_on_item hmethods.sound h)⟩
  · cases h.symm.trans hrun

/-- Inside of a query that finds the variables of an expression at their values, the expression
gives of an item what it gives in the context of the item. -/
theorem gives_on_item (hmethods : scope.methods.Steady)
    (h : (scope.compile (itemNode element session) p) (inside session) = .ok test final)
    (hservices : ∀ service ∈ test.services, Entries.contains services service = true)
    (hkept : test.KeptIn environment)
    (hvalue : test.plan.eval services ((parameterName session.parameters, item) :: environment) =
      .ok value) (other : Session) :
    scope.Gives element other services item p value := by
  obtain ⟨own, last, hown, hsame, heval⟩ := compile_on_item hmethods h other
  refine ⟨own, last, hown, Query.run_ofNode_eq_ok.mpr ⟨hsame ▸ hservices, ?_⟩⟩
  rw [← heval, ← hvalue]
  exact ((sound_on_item hmethods.sound h).eval_keptIn hkept services item).symm

end Scope

end TypedQuery
