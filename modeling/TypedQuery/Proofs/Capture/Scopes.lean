import TypedQuery.Proofs.Capture.Settling
import TypedQuery.Proofs.Query.Binding

/-!
# The scopes of variables

If variables are written in place, every variable keeps the value of the scope in which it
stands: the arguments that are bound for a computed field, and around them the variables of the
request. A compiled query has one parameter for all variables of a name instead, so it gives the
values of the scopes exactly as far as the parameters keep them.
-/

namespace TypedQuery

namespace Query

/-- The query with every written variable at the value that is kept under its name. -/
def settled (query : Query) : Query :=
  { query with body := query.body.settle query.kept }

/-- Every written variable has the value that is kept under its name. -/
def Agrees (query : Query) : Prop :=
  ∀ entry ∈ query.body.captures, Entries.find? query.kept entry.1 = some entry.2

/-- A query with parameters flattens the scopes of a query with written variables. What is
written depends on nothing else that is captured. The query with parameters runs as the other
one does after its variables got the values that are kept for their names, and nothing changes
by that exactly when these are the values of the scopes. -/
structure Flattens (query exact : Query) : Prop where
  parameters : query.parameters = exact.parameters
  arguments : query.arguments = exact.arguments
  alone : ∀ (services : Services) (environment other : Environment),
    (∀ name, (∀ x, name ≠ constantName x) → environment.lookup name = other.lookup name) →
    exact.body.eval services environment = exact.body.eval services other
  run : ∀ (services : Services) (context : Value),
    query.run services context = exact.settled.run services context
  settled_iff : exact.settled = exact ↔ exact.Agrees

/-- The values of the scopes are kept, and then both queries give the same. -/
theorem Flattens.run_eq {query exact : Query} (h : query.Flattens exact) (hagrees : exact.Agrees)
    (services : Services) (context : Value) :
    query.run services context = exact.run services context := by
  rw [h.run, h.settled_iff.mpr hagrees]

/-- The query of a node keeps a value for each variable that the node captures. -/
theorem exists_find?_kept {node : Node} {x : String} (hx : x ∈ Entries.names node.constants)
    (contextTy : Ty) :
    ∃ value, Entries.find? (ofNode node contextTy).kept (constantName x) = some value := by
  obtain ⟨entry, hentry, rfl⟩ := List.mem_map.mp hx
  rw [kept_ofNode]
  exact Entries.exists_find?_of_mem
    (List.mem_reverse.mpr (List.mem_map.mpr ⟨entry, hentry, rfl⟩))

/-- What is kept stands in the environment. -/
theorem lookup_environmentOf {node : Node} {contextTy : Ty} {name : String} {value : Value}
    (h : Entries.find? (ofNode node contextTy).kept name = some value) (context : Value) :
    (environmentOf node context).lookup name = some value := by
  rw [kept_ofNode] at h
  unfold environmentOf
  rw [List.lookup_append, show List.lookup name _ = some value from h]
  rfl

/-- The queries of two nodes that differ in nothing but their variables. -/
theorem Releases.flattens {query exact : Query} (h : query.Releases exact) :
    query.Flattens exact := by
  obtain ⟨node, node', contextTy, hnode, rfl, rfl⟩ := h
  have hparameters : (ofNode node contextTy).parameters = (ofNode node' contextTy).parameters := by
    unfold ofNode
    rw [hnode.constants, hnode.services]
  have harguments : (ofNode node contextTy).arguments = (ofNode node' contextTy).arguments := by
    unfold ofNode
    rw [hnode.constants]
  refine ⟨hparameters, harguments, ?_, ?_, ?_⟩
  · intro services environment other hagree
    exact hnode.plan.eval_congr hagree
  · intro services context
    unfold run settled
    rw [hparameters, harguments]
    dsimp only
    rw [bind_ofNode]
    split
    · rfl
    · refine hnode.plan.eval_settle fun x hx => ?_
      obtain ⟨value, hvalue⟩ := exists_find?_kept hx contextTy
      exact ⟨value, hvalue, lookup_environmentOf hvalue context⟩
  · have hiff := hnode.plan.settle_eq_iff fun x hx => exists_find?_kept hx contextTy
    constructor
    · intro hsettled
      exact hiff.mp (congrArg body hsettled)
    · intro hagrees
      have hbody : (ofNode node' contextTy).body.settle (ofNode node' contextTy).kept =
          (ofNode node' contextTy).body := hiff.mpr hagrees
      unfold settled
      rw [hbody]

end Query

/-- Compiled with the standard methods, every expression and every document gives queries that
flatten the scopes of variables, and fails as it does with variables written in place. So a
query gives what the scopes give as far as the kept values are those of the scopes. -/
theorem Host.flattens_scopes {host : Host} (hmethods : host.methods = .standard) :
    (∀ (vars : Entries Value) (contextTy : Ty) (source : String),
      Halting.Parallel Query.Flattens (Query.compile (host.scope vars) contextTy source)
        (Query.compile (host.scope vars) contextTy source .inPlace)) ∧
      ∀ (document : Document) (request : Request),
        Halting.Parallel (CompiledDocument.Related Query.Flattens)
          (host.compileOperation document request)
          (host.compileOperation document request .inPlace) := by
  have huniform : host.methods.Uniform .released := hmethods ▸ MethodLibrary.uniform_standard
  refine ⟨fun vars contextTy source => ?_, fun document request => ?_⟩
  · have hscope : (host.scope vars).methods.Uniform .released := huniform
    exact .mono (Query.compile_parallel hscope contextTy source) fun _ _ h => h.flattens
  · exact .mono (compileOperation_parallel huniform document request)
      fun _ _ h => h.mono fun _ _ h => h.flattens

/-- A host with a field that multiplies its argument by ten. -/
def tenfoldHost : Host where
  schema := .ofParts "Query" [] [.ofFields "Query" none [
    { name := "tenfold"
      ty := .int .i32
      resolver := .computed "$n * 10"
      arguments := [⟨"n", .int .i32, some (.int 1)⟩]
      requirement? := none
      sequenceArguments := .none }]] []
  methods := .standard
  depth := 1

/-- The outcome is an integer. -/
def givesInt (outcome : Except RunFault Value) (n : Int64) : Bool :=
  match outcome with
  | .ok (.int m) => m = n
  | _ => false

/-- An outcome that is tested to give an integer gives it. -/
theorem eq_of_givesInt {outcome : Except RunFault Value} {n : Int64}
    (h : givesInt outcome n = true) : outcome = .ok (.int n) := by
  unfold givesInt at h
  split at h
  · rw [of_decide_eq_true h]
  · cases h

/-- A variable of the request and the argument of a field share a name. With five for the one
and one for the other the scopes give fifteen, but the query keeps the one for both. -/
theorem Host.flattens_scopes_tenfold :
    ∃ (query exact : Query) (session : Session),
      (Query.compile (tenfoldHost.scope [("n", .int 5)]) (.object "Query") "$n + tenfold")
        ⟨0, .empty⟩ = .ok query session ∧
      (Query.compile (tenfoldHost.scope [("n", .int 5)]) (.object "Query") "$n + tenfold" .inPlace)
        ⟨0, .empty⟩ = .ok exact session ∧
      query.Flattens exact ∧ ¬ exact.Agrees ∧
      query.run [] .null = .ok (.int 11) ∧ exact.run [] .null = .ok (.int 15) := by
  obtain ⟨query, session, hquery, hrun⟩ := Halting.exists_of_yields (show
    (Query.compile (tenfoldHost.scope [("n", .int 5)]) (.object "Query") "$n + tenfold").yields
      ⟨0, .empty⟩ (fun query => givesInt (query.run [] .null) 11) = true by decide +kernel)
  obtain ⟨exact, session', hexact, hrun'⟩ := Halting.exists_of_yields (show
    (Query.compile (tenfoldHost.scope [("n", .int 5)]) (.object "Query") "$n + tenfold"
      .inPlace).yields ⟨0, .empty⟩ (fun query => givesInt (query.run [] .null) 15) = true by
        decide +kernel)
  have hparallel := (@Host.flattens_scopes tenfoldHost rfl).1 [("n", .int 5)] (.object "Query")
    "$n + tenfold" ⟨0, .empty⟩
  rw [hquery, hexact] at hparallel
  obtain ⟨hflattens, rfl⟩ := hparallel
  have hquery' := eq_of_givesInt hrun
  have hexact' := eq_of_givesInt hrun'
  refine ⟨query, exact, session, hquery, hexact, hflattens, fun hagrees => ?_, hquery', hexact'⟩
  have hsame := hflattens.run_eq hagrees [] .null
  rw [hquery', hexact'] at hsame
  cases hsame

end TypedQuery
