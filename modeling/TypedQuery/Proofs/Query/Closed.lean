import TypedQuery.Proofs.Plan.Sealed
import TypedQuery.Proofs.Query.Binding

/-!
# Compiled queries are closed

Whatever compiles with the standard methods lists everything that its plan refers to. Running
it never finds a parameter unbound, and a missing service is found before the plan is run.
-/

namespace TypedQuery

/-- Nothing is assumed of hosts and variables. -/
def Assumptions.none : Assumptions :=
  ⟨fun _ _ _ => True, fun _ _ => True, fun _ _ => True, fun _ => True⟩

/-- Every host with sound methods is sound if nothing is assumed. -/
theorem Host.sound_none {host : Host} (vars : Entries Value) (hmethods : host.methods.Sound .none) :
    host.Sound .none vars where
  scope := {
    schema := ⟨fun _ _ _ _ _ => ⟨fun _ _ => trivial, fun _ _ _ _ => trivial,
      fun _ _ _ _ _ _ => trivial⟩, fun _ _ _ _ _ _ _ _ _ => trivial⟩
    methods := hmethods
    vars := fun _ _ _ => trivial }
  grants _ := ⟨fun _ _ _ _ _ => ⟨fun _ _ => trivial, fun _ _ _ _ => trivial,
    fun _ _ _ _ _ _ => trivial⟩, fun _ _ _ _ _ _ _ _ _ => trivial⟩
  reads _ _ _ _ _ := trivial

namespace Query

/-- A query lists everything that its plan refers to: each free parameter is the context or a
constant with a value, and each needed service is a parameter. -/
structure Closed (query : Query) : Prop where
  parameters : ∀ name ∈ query.body.free, name = contextName ∨
    ∃ value, (name, value) ∈ query.constants.zip query.arguments
  services : ∀ service ∈ query.body.needed, service ∈ query.services

variable {node : Node} {contextTy : Ty} {services : Services} {context : Value}

/-- The query of a sound node is closed. -/
theorem closed_ofNode {A : Assumptions} (h : node.Sound A (.only contextName contextTy)) :
    (ofNode node contextTy).Closed where
  parameters := by
    intro name hname
    obtain ⟨ty, ⟨rfl, _⟩ | ⟨x, _, rfl, hx, _, _⟩⟩ := h.typed.exists_of_mem_free name hname
    · exact Or.inl rfl
    · obtain ⟨entry, hentry, rfl⟩ := List.mem_map.mp hx
      refine Or.inr ⟨entry.2, ?_⟩
      rw [constants_ofNode, ofNode, Entries.values, List.zip_map']
      exact List.mem_map.mpr ⟨entry, hentry, rfl⟩
  services := by
    rw [services_ofNode]
    exact h.typed.mem_of_mem_needed

/-- The environment of a closed query has a value for each free parameter of its plan. -/
theorem isSome_lookup_environmentOf {A : Assumptions}
    (h : node.Sound A (.only contextName contextTy)) :
    ∀ name ∈ node.plan.free, ((environmentOf node context).lookup name).isSome = true := by
  intro name hname
  obtain ⟨ty, hty⟩ := h.typed.exists_of_mem_free name hname
  exact Option.isSome_iff_exists.mpr (exists_lookup_environmentOf hty)

/-- With its services, the query of a sound node misses nothing. -/
theorem sealed_run {A : Assumptions} (h : node.Sound A (.only contextName contextTy))
    (hservices : ∀ service ∈ node.services, Entries.contains services service = true) :
    Sealed ((ofNode node contextTy).run services context) := by
  rw [run_ofNode hservices]
  exact Plan.sealed_eval node.plan (isSome_lookup_environmentOf h)
    fun service hservice => hservices service (h.typed.mem_of_mem_needed service hservice)

/-- Without one of its services, a run ends with the first missing one, whatever the plan is. -/
theorem run_of_missing (node : Node) (contextTy : Ty) (context : Value)
    (h : ∃ service ∈ node.services, Entries.contains services service = false) :
    ∃ missing ∈ node.services, Entries.contains services missing = false ∧ ∀ body : Plan,
      ({ ofNode node contextTy with body } : Query).run services context =
        .error (.missingService missing) := by
  cases hfind : node.services.find? fun service => !Entries.contains services service with
  | none =>
    obtain ⟨service, hservice, hmissing⟩ := h
    have hcontains := List.find?_eq_none.mp hfind service hservice
    simp [hmissing] at hcontains
  | some missing =>
    refine ⟨missing, List.mem_of_find?_eq_some hfind, by simpa using List.find?_some hfind, ?_⟩
    intro body
    unfold run
    rw [bind_ofNode, hfind]
    rfl

end Query

/-- Everything that compiles with the standard methods is closed: each parameter in its plan is
bound by a binder around it, or is the context, or is a constant parameter with a value, and
each service that a call needs is listed. With the listed services a run never ends because a
parameter is unbound or a service is missing. Without one of them it ends with a missing service,
whatever plan stands in the place of the query's own. -/
theorem Host.closed_of_compiles {host : Host} {contextTy : Ty} {vars : Entries Value}
    {query : Query}
    (h : host.Compiles contextTy vars query) (hmethods : host.methods = .standard) :
    query.Closed ∧ ∀ (services : Services) (context : Value),
      ((∀ service ∈ query.services, Entries.contains services service = true) →
        (∀ name, query.run services context ≠ .error (.unbound name)) ∧
          ∀ service, query.run services context ≠ .error (.missingService service)) ∧
      ((∃ service ∈ query.services, Entries.contains services service = false) →
        ∃ missing ∈ query.services, Entries.contains services missing = false ∧ ∀ body : Plan,
          ({ query with body } : Query).run services context =
            .error (.missingService missing)) := by
  have hlibrary : host.methods.Sound .none := hmethods ▸ MethodLibrary.sound_standard .none
  obtain ⟨node, hnode, rfl⟩ := h.sound (Host.sound_none vars hlibrary)
  refine ⟨Query.closed_ofNode hnode, fun services context => ?_⟩
  rw [Query.services_ofNode]
  refine ⟨fun hservices => ?_, Query.run_of_missing node contextTy context⟩
  have hsealed : Sealed ((Query.ofNode node contextTy).run services context) :=
    Query.sealed_run hnode hservices
  exact ⟨fun name hrun => absurd (hsealed _ hrun) (by simp [RunFault.isScope]),
    fun service hrun => absurd (hsealed _ hrun) (by simp [RunFault.isScope])⟩

/-- A host with a service that greets by a name and a mark. -/
def greetingHost : Host where
  schema := .ofParts "Query" [] [.ofFields "Query" none [
    .ofMember "name" .string,
    { name := "greeting"
      ty := .string
      resolver := .service "Greeter" ["name + $mark"] fun _ arguments => .ok (arguments.headD .null)
      arguments := []
      requirement? := none
      sequenceArguments := .none }]] []
  methods := .standard
  depth := 1

/-- The greeting needs its service and a value of the mark. Without the service nothing is run. -/
theorem Host.closed_of_compiles_greeting :
    ∃ query, greetingHost.Compiles (.object "Query") [("mark", .text "!")] query ∧ query.Closed ∧
      query.constants = ["$mark"] ∧ query.services = ["Greeter"] ∧
      ∃ missing ∈ query.services, query.run [] .null = .error (.missingService missing) := by
  obtain ⟨query, session, hrun, htest⟩ := Halting.exists_of_yields (show
    (Query.compile (greetingHost.scope [("mark", .text "!")]) (.object "Query") "greeting").yields
      ⟨0, .empty⟩ (fun query => query.constants = ["$mark"] ∧ query.services = ["Greeter"])
        = true by
        decide +kernel)
  obtain ⟨hconstants, hservices⟩ : query.constants = ["$mark"] ∧ query.services = ["Greeter"] := by
    simpa using htest
  have hcompiles : greetingHost.Compiles (.object "Query") [("mark", .text "!")] query :=
    .expression hrun
  obtain ⟨hclosed, hrun⟩ := Host.closed_of_compiles hcompiles rfl
  obtain ⟨missing, hmem, _, hmissing⟩ := (hrun [] .null).2
    ⟨"Greeter", by simp [hservices], rfl⟩
  exact ⟨query, hcompiles, hclosed, hconstants, hservices, missing, hmem, hmissing query.body⟩

end TypedQuery
