import TypedQuery.Proofs.Query.Invocations
import TypedQuery.Proofs.Query.Outcomes

/-!
# Fields that run one after another

How a mutation ends: where it stops, or what it answers, and the world that it leaves. Running
outcomes gives a row of such runs, each in the world that the one before has left, and the envelope
is read off the row. A mutation that is refused before its routine is called leaves the store as it
was. A selection or a re-query that is rejected afterwards does not take back what the routine has
done.
-/

namespace TypedQuery

open Halting

/-- The context in which the selections on a result run: the value that was handed back, or the
store as it is. -/
def MutationResult.context (store : Value) : MutationResult → Value
  | .value handed _ => handed
  | .requery _ _ => store

namespace PendingMutation

variable {pending : PendingMutation} {host : Host} {services : Services} {claims : Claims}
  {world invoked called after : World} {invocation : Invocation} {result : MutationResult}

/-- How a mutation ends, and the world that it leaves. Every context is read from the store at that
moment: the routine gets the one that it finds, and a re-query the one that the routine leaves. The
routine is called in a world with the record type of its arguments. -/
inductive Ends (pending : PendingMutation) (host : Host) (services : Services) (claims : Claims)
    (world : World) : Except Failure Json → World → Prop
  | refused {fault : CompileFault} {refused : World}
      (hinvocation : pending.mutation.invocation host.schema services claims world.store
        pending.arguments world = .error (.fault fault) refused) :
      Ends pending host services claims world (.error ⟨.compile fault, pending.path⟩) refused
  | failed {invocation : Invocation} {message : String} {invoked called : World}
      (hinvocation : pending.mutation.invocation host.schema services claims world.store
        pending.arguments world = .ok invocation invoked)
      (hroutine : pending.mutation.routine invocation invoked = .error message called) :
      Ends pending host services claims world (.error ⟨.routine message, pending.path⟩) called
  | rejected {invocation : Invocation} {result : MutationResult} {invoked called : World}
      {failure : FieldFailure} {session : Session}
      (hinvocation : pending.mutation.invocation host.schema services claims world.store
        pending.arguments world = .ok invocation invoked)
      (hroutine : pending.mutation.routine invocation invoked = .ok result called)
      (hquery : pending.resultQuery host claims result ⟨0, called.register⟩ =
        .error (.fault failure) session) :
      Ends pending host services claims world (.error (.ofField failure))
        { called with register := session.register }
  | broken {invocation : Invocation} {result : MutationResult} {invoked called : World}
      {query : Query} {session : Session} {fault : RunFault}
      (hinvocation : pending.mutation.invocation host.schema services claims world.store
        pending.arguments world = .ok invocation invoked)
      (hroutine : pending.mutation.routine invocation invoked = .ok result called)
      (hquery : pending.resultQuery host claims result ⟨0, called.register⟩ = .ok query session)
      (hrun : query.run services (result.context called.store) = .error fault) :
      Ends pending host services claims world (.error ⟨.run fault, pending.path⟩)
        { called with register := session.register }
  | answered {invocation : Invocation} {result : MutationResult} {invoked called : World}
      {query : Query} {session : Session} {value : Value}
      (hinvocation : pending.mutation.invocation host.schema services claims world.store
        pending.arguments world = .ok invocation invoked)
      (hroutine : pending.mutation.routine invocation invoked = .ok result called)
      (hquery : pending.resultQuery host claims result ⟨0, called.register⟩ = .ok query session)
      (hrun : query.run services (result.context called.store) = .ok value) :
      Ends pending host services claims world (.ok (value.toJson (some host.schema)))
        { called with register := session.register }

/-- The context of a mutation is the store as it is. -/
theorem freshContext_eq_ok :
    (Execution.freshContext : Execution Failure Value) world = .ok world.store world :=
  rfl

/-- A mutation that is refused runs nothing. -/
theorem run_refused {fault : CompileFault}
    (hinvocation : pending.mutation.invocation host.schema services claims world.store
      pending.arguments world = .error (.fault fault) after) :
    pending.run host services claims world =
      .error (.fault ⟨.compile fault, pending.path⟩) after := by
  unfold PendingMutation.run
  exact (bind_of_ok freshContext_eq_ok).trans (bind_of_error (mapFault_of_fault hinvocation))

/-- A mutation that is invoked calls its routine in the world that the invocation leaves. -/
theorem run_failed {message : String}
    (hinvocation : pending.mutation.invocation host.schema services claims world.store
      pending.arguments world = .ok invocation invoked)
    (hroutine : pending.mutation.routine invocation invoked = .error message called) :
    pending.run host services claims world =
      .error (.fault ⟨.routine message, pending.path⟩) called := by
  have hfailed : Execution.ofRoutine (pending.mutation.routine invocation) invoked =
      .error (.fault message) called := by
    unfold Execution.ofRoutine
    rw [hroutine]
  unfold PendingMutation.run
  exact (bind_of_ok freshContext_eq_ok).trans ((bind_of_ok (mapFault_eq_ok.mpr hinvocation)).trans
    (bind_of_error (mapFault_of_fault hfailed)))

/-- What follows the call of a routine: its result is compiled to a query, which runs on the result
or on the store that the routine has left. -/
theorem run_called
    (hinvocation : pending.mutation.invocation host.schema services claims world.store
      pending.arguments world = .ok invocation invoked)
    (hroutine : pending.mutation.routine invocation invoked = .ok result called) :
    pending.run host services claims world =
      match pending.resultQuery host claims result ⟨0, called.register⟩ with
      | .ok query session =>
        match query.run services (result.context called.store) with
        | .ok value =>
          .ok (value.toJson (some host.schema)) { called with register := session.register }
        | .error fault =>
          .error (.fault ⟨.run fault, pending.path⟩) { called with register := session.register }
      | .error (.fault failure) session =>
        .error (.fault (.ofField failure)) { called with register := session.register }
      | .error .depth session => .error .depth { called with register := session.register } := by
  have hcalled : Execution.ofRoutine (pending.mutation.routine invocation) invoked =
      .ok result called := by
    unfold Execution.ofRoutine
    rw [hroutine]
  unfold PendingMutation.run
  refine (bind_of_ok freshContext_eq_ok).trans ((bind_of_ok (mapFault_eq_ok.mpr hinvocation)).trans
    ((bind_of_ok (mapFault_eq_ok.mpr hcalled)).trans ?_))
  cases hquery : pending.resultQuery host claims result ⟨0, called.register⟩ with
  | error halt session =>
    have hcompiles : Execution.ofRun (pending.resultQuery host claims result) called =
        .error halt { called with register := session.register } := by
      unfold Execution.ofRun
      rw [hquery]
    cases halt with
    | fault failure => exact bind_of_error (mapFault_of_fault hcompiles)
    | depth => exact bind_of_error (mapFault_of_depth hcompiles)
  | ok query session =>
    have hcompiles : Execution.ofRun (pending.resultQuery host claims result) called =
        .ok query { called with register := session.register } := by
      unfold Execution.ofRun
      rw [hquery]
    refine (bind_of_ok (mapFault_eq_ok.mpr hcompiles)).trans ?_
    have hanswer : ∀ context : Value, (match query.run services context with
        | .ok value => (Pure.pure (value.toJson (some host.schema)) : Execution Failure Json)
        | .error fault => Halting.fail ⟨.run fault, pending.path⟩)
          { called with register := session.register } =
        match query.run services context with
        | .ok value =>
          .ok (value.toJson (some host.schema)) { called with register := session.register }
        | .error fault =>
          .error (.fault ⟨.run fault, pending.path⟩)
            { called with register := session.register } := by
      intro context
      cases query.run services context with
      | ok value => rfl
      | error fault => rfl
    cases result with
    | value value ty => exact hanswer value
    | requery expression vars => exact hanswer called.store

/-- The runs of a mutation that end, with an answer or a failure, are those that are described
step by step. -/
theorem ends_iff {outcome : Except Failure Json} :
    ((pending.run host services claims).attempt : Execution Empty _) world = .ok outcome after ↔
      pending.Ends host services claims world outcome after := by
  unfold Halting.attempt
  constructor
  · intro h
    cases hinvocation : pending.mutation.invocation host.schema services claims world.store
        pending.arguments world with
    | error halt refused =>
      obtain ⟨fault, rfl, -⟩ := Mutation.invocation_eq_error hinvocation
      rw [run_refused hinvocation] at h
      cases h
      exact .refused hinvocation
    | ok invocation invoked =>
      cases hroutine : pending.mutation.routine invocation invoked with
      | error message called =>
        rw [run_failed hinvocation hroutine] at h
        cases h
        exact .failed hinvocation hroutine
      | ok result called =>
        rw [run_called hinvocation hroutine] at h
        cases hquery : pending.resultQuery host claims result ⟨0, called.register⟩ with
        | error halt session =>
          rw [hquery] at h
          cases halt with
          | fault failure =>
            cases h
            exact .rejected hinvocation hroutine hquery
          | depth => cases h
        | ok query session =>
          rw [hquery] at h
          cases hrun : query.run services (result.context called.store) with
          | error fault =>
            simp only [hrun] at h
            cases h
            exact .broken hinvocation hroutine hquery hrun
          | ok value =>
            simp only [hrun] at h
            cases h
            exact .answered hinvocation hroutine hquery hrun
  · intro h
    cases h with
    | refused hinvocation => rw [run_refused hinvocation]
    | failed hinvocation hroutine => rw [run_failed hinvocation hroutine]
    | rejected hinvocation hroutine hquery => simp only [run_called hinvocation hroutine, hquery]
    | broken hinvocation hroutine hquery hrun =>
      simp only [run_called hinvocation hroutine, hquery, hrun]
    | answered hinvocation hroutine hquery hrun =>
      simp only [run_called hinvocation hroutine, hquery, hrun]

end PendingMutation

/-- The run of a field: the world before it, what came out, and the world after it. -/
structure FieldRun where
  name : String
  outcome : Outcome
  before : World
  result : Except Failure Json
  after : World

namespace FieldRun

/-- What the data of the envelope shows of a field. -/
def entry (run : FieldRun) : String × Json :=
  match run.result with
  | .ok json => (run.name, json)
  | .error _ => (run.name, .null)

/-- What the errors of the envelope show of a field. -/
def error? (run : FieldRun) : Option Json :=
  match run.result with
  | .ok _ => none
  | .error failure => some (errorEntry (failure.cause.message run.after.register) failure.path)

/-- The envelope that shows the runs of fields. -/
def envelope (runs : List FieldRun) : Json :=
  TypedQuery.envelope (.object (runs.map entry)) (runs.filterMap error?)

end FieldRun

namespace Host

variable {host : Host} {services : Services} {claims : Claims} {context : Value}
  {outcomes : List (String × Outcome)} {world final : World}

/-- Outcomes run one after another, each in the world that the one before has left. -/
inductive Runs (host : Host) (services : Services) (claims : Claims) (context : Value) :
    List (String × Outcome) → World → List FieldRun → World → Prop
  | nil {world : World} : Runs host services claims context [] world [] world
  | cons {name : String} {outcome : Outcome} {rest : List (String × Outcome)}
      {world between final : World} {result : Except Failure Json} {runs : List FieldRun}
      (hfirst : ((outcome.run host services claims context name).attempt : Execution Empty _)
        world = .ok result between)
      (hrest : Runs host services claims context rest between runs final) :
      Runs host services claims context ((name, outcome) :: rest) world
        (⟨name, outcome, world, result, between⟩ :: runs) final

/-- Each run is the run of an outcome, in the world before it. -/
theorem Runs.of_mem {runs : List FieldRun} {run : FieldRun}
    (hruns : host.Runs services claims context outcomes world runs final) (hmem : run ∈ runs) :
    (run.name, run.outcome) ∈ outcomes ∧
      ((run.outcome.run host services claims context run.name).attempt : Execution Empty _)
        run.before = .ok run.result run.after := by
  induction hruns with
  | nil => cases hmem
  | cons hfirst hrest ih =>
    cases hmem with
    | head => exact ⟨List.mem_cons_self, hfirst⟩
    | tail _ hmem =>
      obtain ⟨hlater, hrun⟩ := ih hmem
      exact ⟨List.mem_cons_of_mem _ hlater, hrun⟩

/-- The data and the errors of outcomes are what their runs show, in their order. -/
theorem runOutcomes_eq_ok {data : List (String × Json)} {errors : List Json} :
    runOutcomes host services claims context outcomes world = .ok (data, errors) final ↔
      ∃ runs, host.Runs services claims context outcomes world runs final ∧
        data = runs.map FieldRun.entry ∧ errors = runs.filterMap FieldRun.error? := by
  -- on the outcomes; each is run in the world that the one before it has left
  induction outcomes generalizing world data errors with
  | nil =>
    constructor
    · intro h
      cases h
      exact ⟨[], .nil, rfl, rfl⟩
    · rintro ⟨runs, hruns, rfl, rfl⟩
      cases hruns
      rfl
  | cons entry rest ih =>
    obtain ⟨name, outcome⟩ := entry
    unfold runOutcomes
    constructor
    · intro h
      obtain ⟨result, between, hfirst, h⟩ := bind_eq_ok.mp h
      obtain ⟨_, _, hregister, h⟩ := bind_eq_ok.mp h
      cases hregister
      obtain ⟨⟨more, failures⟩, _, hrest, h⟩ := bind_eq_ok.mp h
      cases result with
      | ok json =>
        cases h
        obtain ⟨runs, hruns, rfl, rfl⟩ := ih.mp hrest
        exact ⟨_, .cons hfirst hruns, rfl, rfl⟩
      | error failure =>
        cases h
        obtain ⟨runs, hruns, rfl, rfl⟩ := ih.mp hrest
        exact ⟨_, .cons hfirst hruns, rfl, rfl⟩
    · rintro ⟨runs, hruns, rfl, rfl⟩
      cases hruns with
      | @cons _ _ _ _ between _ result runs hfirst hrest =>
        rw [bind_of_ok hfirst]
        refine (bind_of_ok
          (rfl : (get : Execution Empty World) between = .ok between between)).trans
            ((bind_of_ok (ih.mpr ⟨runs, hrest, rfl, rfl⟩)).trans ?_)
        cases result with
        | ok json => rfl
        | error failure => rfl

/-- The envelope of a compiled mutation document shows the runs of its fields, one after another. -/
theorem execute_mutation_eq_ok {json : Json} :
    host.execute services ⟨.mutation, outcomes, claims⟩ world = .ok json final ↔
      ∃ runs, host.Runs services claims .null outcomes world runs final ∧
        json = FieldRun.envelope runs := by
  unfold Host.execute
  dsimp only
  rw [pure_bind, bind_eq_ok]
  constructor
  · rintro ⟨⟨data, errors⟩, between, hrun, henvelope⟩
    obtain ⟨rfl, rfl⟩ := pure_eq_ok.mp henvelope
    obtain ⟨runs, hruns, rfl, rfl⟩ := runOutcomes_eq_ok.mp hrun
    exact ⟨runs, hruns, rfl⟩
  · rintro ⟨runs, hruns, rfl⟩
    exact ⟨_, final, runOutcomes_eq_ok.mpr ⟨runs, hruns, rfl, rfl⟩, rfl⟩

/-- The run of a mutation document is the run of its fields, of fields with one name the last one in
the place of the first one. -/
theorem run_mutation_eq_ok {source : String} {request : Request} {document : Document}
    {operation : Operation} {vars : Entries Value} {json : Json}
    (hread : Document.read source = .ok document)
    (hoperation : document.operation request.operation? = .ok operation)
    (hkind : operation.kind = .mutation)
    (hvars : host.schema.bindVariables operation.vars request.vars = .ok vars) :
    host.run services source request world = .ok json final ↔
      ∃ runs, host.Runs services request.claims .null
          (Entries.ofList (document.outcomes (host.scope vars) operation.selections)) world runs
          final ∧
        json = FieldRun.envelope runs := by
  rw [← execute_mutation_eq_ok]
  unfold Host.run
  rw [compileDocument_mutation hread hoperation hkind hvars]
  rfl

end Host

end TypedQuery
