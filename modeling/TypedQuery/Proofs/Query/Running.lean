import TypedQuery.Proofs.Query.Inlining

/-!
# The runs of the parts of a document

A document of either kind runs one outcome for each response name. A part of a query has been
compiled in the session that the parts before it have left, and a part of a mutation document has
been prepared. The envelope shows the runs.
-/

namespace TypedQuery

open Halting

/-- The context in which the outcomes of an operation run. Mutations read their own. -/
def OperationKind.context (store : Value) : OperationKind → Value
  | query => store
  | mutation => .null

/-- What becomes of a part of a document: the outcome to which it is compiled from a session on, or
prepared. -/
inductive Part.Becomes (host : Host) (vars : Entries Value) (claims : Claims) (part : Part)
    (start : Session) : OperationKind → Outcome → Prop
  | query {outcome : Outcome} {final : Session}
      (hcompile : part.compile (host.scope vars) claims start = .ok outcome final) :
      Becomes host vars claims part start .query outcome
  | mutation : Becomes host vars claims part start .mutation (part.outcome (host.scope vars))

/-- The response names of a document, each in the place where it appears first. -/
def Document.names (document : Document) (selections : List Selection) : List String :=
  Entries.names (Entries.ofList ((document.parts selections).map fun part => (part.name, part)))

namespace Host

variable {host : Host} {services : Services} {claims : Claims} {context : Value}
  {outcomes : List (String × Outcome)} {world final : World} {runs : List FieldRun}
  {document : Document} {operation : Operation} {vars : Entries Value} {json : Json}
  {source : String} {request : Request}

/-- There is one run for each outcome, under its name. -/
theorem Runs.names (h : host.Runs services claims context outcomes world runs final) :
    runs.map FieldRun.name = Entries.names outcomes := by
  induction h with
  | nil => rfl
  | cons hfirst hrest ih => exact congrArg (_ :: ·) ih

/-- The envelope of a compiled document shows the runs of its outcomes. -/
theorem execute_eq_ok {kind : OperationKind} :
    host.execute services ⟨kind, outcomes, claims⟩ world = .ok json final ↔
      ∃ runs, host.Runs services claims (kind.context world.store) outcomes world runs final ∧
        json = FieldRun.envelope runs := by
  have hfresh : Execution.freshContext world =
      (.ok world.store world : EStateM.Result (Halt Empty) World Value) :=
    rfl
  cases kind with
  | mutation => exact execute_mutation_eq_ok
  | query =>
    unfold Host.execute
    dsimp only
    rw [bind_of_ok hfresh, bind_eq_ok]
    constructor
    · rintro ⟨⟨data, errors⟩, between, hrun, henvelope⟩
      obtain ⟨rfl, rfl⟩ := pure_eq_ok.mp henvelope
      obtain ⟨runs, hruns, rfl, rfl⟩ := runOutcomes_eq_ok.mp hrun
      exact ⟨runs, hruns, rfl⟩
    · rintro ⟨runs, hruns, rfl⟩
      exact ⟨_, final, runOutcomes_eq_ok.mpr ⟨runs, hruns, rfl, rfl⟩, rfl⟩

/-- The response names of parts with their outcomes. -/
theorem names_of_pairs (pairs : List (Part × Outcome)) :
    Entries.names (Entries.ofList (pairs.map fun pair => (pair.1.name, pair.2))) =
      Entries.names (Entries.ofList
        ((pairs.map Prod.fst).map fun part => (part.name, part))) := by
  let named : List (String × Part × Outcome) := pairs.map fun pair => (pair.1.name, pair)
  have houtcomes : pairs.map (fun pair => (pair.1.name, pair.2)) =
      Entries.mapValues Prod.snd named := by
    unfold Entries.mapValues named
    rw [List.map_map]
    rfl
  have hparts : (pairs.map Prod.fst).map (fun part => (part.name, part)) =
      Entries.mapValues Prod.fst named := by
    unfold Entries.mapValues named
    rw [List.map_map, List.map_map]
    rfl
  rw [houtcomes, hparts, Entries.ofList_mapValues, Entries.ofList_mapValues,
    Entries.names_mapValues, Entries.names_mapValues]

/-- An operation compiles to what its parts become, under their names. -/
theorem compileOperation_eq_ok {compiled : CompiledDocument} {start session : Session}
    (hoperation : document.operation request.operation? = .ok operation)
    (hvars : host.schema.bindVariables operation.vars request.vars = .ok vars)
    (hcompiled : host.compileOperation document request .parameter start = .ok compiled session) :
    ∃ pairs : List (Part × Outcome), pairs.map Prod.fst = document.parts operation.selections ∧
      compiled = ⟨operation.kind, Entries.ofList (pairs.map fun pair => (pair.1.name, pair.2)),
        request.claims⟩ ∧
      ∀ pair ∈ pairs, ∃ before,
        pair.1.Becomes host vars request.claims before operation.kind pair.2 := by
  cases hkind : operation.kind with
  | mutation =>
    rw [compileOperation_mutation hoperation hkind hvars] at hcompiled
    obtain ⟨rfl, rfl⟩ := pure_eq_ok.mp hcompiled
    refine ⟨(document.parts operation.selections).map fun part =>
      (part, part.outcome (host.scope vars)), ?_, ?_, fun pair hpair => ?_⟩
    · rw [List.map_map]
      exact List.map_id _
    · rw [Document.outcomes_eq, List.map_map]
      rfl
    · obtain ⟨part, -, rfl⟩ := List.mem_map.mp hpair
      exact ⟨session, .mutation⟩
  | query =>
    rw [compileOperation_query hoperation hkind hvars] at hcompiled
    obtain ⟨fields, between, hparts, hend⟩ := bind_eq_ok.mp hcompiled
    obtain ⟨rfl, rfl⟩ := pure_eq_ok.mp hend
    obtain ⟨pairs, hpairs, rfl, houtcomes⟩ := compileParts_eq_ok (mapFault_eq_ok.mp hparts)
    refine ⟨pairs, hpairs, rfl, fun pair hpair => ?_⟩
    obtain ⟨before, after, hcompile⟩ := houtcomes pair hpair
    exact ⟨before, .query hcompile⟩

/-- An operation whose variables are bound does not fail as a whole. -/
theorem compileOperation_fails {start : Session} {fault : CompileFault} {session : Session}
    (hoperation : document.operation request.operation? = .ok operation)
    (hvars : host.schema.bindVariables operation.vars request.vars = .ok vars) :
    host.compileOperation document request .parameter start ≠ .error (.fault fault) session := by
  intro hfails
  cases hkind : operation.kind with
  | mutation =>
    rw [compileOperation_mutation hoperation hkind hvars] at hfails
    cases hfails
  | query =>
    rw [compileOperation_query hoperation hkind hvars] at hfails
    have hnever : ∀ describe : Empty → CompileFault, FailsWith ((do
        let fields ← (compileParts (host.scope vars) request.claims
          (document.parts operation.selections) []).mapFault describe
        return ⟨.query, fields, request.claims⟩ : Compile CompiledDocument)) fun _ => False :=
      fun _ => .bind (.mapFault Empty.elim) fun _ => .pure _
    exact hnever _ _ _ _ hfails

/-- The run of a document, if it has an end, is a row of runs of what its parts become, one for each
response name, and the envelope shows this row. -/
theorem run_eq_ok (hread : Document.read source = .ok document)
    (hoperation : document.operation request.operation? = .ok operation)
    (hvars : host.schema.bindVariables operation.vars request.vars = .ok vars)
    (hrun : host.run services source request world = .ok json final) :
    ∃ outcomes register runs,
      host.Runs services request.claims (operation.kind.context world.store) outcomes
          ⟨world.store, register⟩ runs final ∧
        json = FieldRun.envelope runs ∧
        runs.map FieldRun.name = document.names operation.selections ∧
        ∀ run ∈ runs, ∃ part ∈ document.parts operation.selections, part.name = run.name ∧
          ∃ before, part.Becomes host vars request.claims before operation.kind run.outcome := by
  rw [run_of_read hread] at hrun
  cases hcompiled : host.compileOperation document request .parameter ⟨0, world.register⟩ with
  | error halt session =>
    cases halt with
    | fault fault => exact absurd hcompiled (compileOperation_fails hoperation hvars)
    | depth =>
      have hstop : ((Execution.ofRun (host.compileOperation document request)).attempt :
          Execution Empty _) world = .error .depth ⟨world.store, session.register⟩ := by
        refine attempt_of_depth ?_
        unfold Execution.ofRun
        rw [hcompiled]
      unfold runDocument at hrun
      rw [bind_of_error hstop] at hrun
      cases hrun
  | ok compiled session =>
    rw [runDocument_of_compiled services hcompiled] at hrun
    obtain ⟨pairs, hpairs, rfl, hbecomes⟩ := compileOperation_eq_ok hoperation hvars hcompiled
    obtain ⟨runs, hruns, hjson⟩ := execute_eq_ok.mp hrun
    refine ⟨_, session.register, runs, hruns, hjson, ?_, fun run hmem => ?_⟩
    · rw [hruns.names, names_of_pairs, hpairs]
      rfl
    · obtain ⟨pair, hpair, heq⟩ := List.mem_map.mp (Entries.mem_of_mem_ofList (hruns.of_mem hmem).1)
      obtain ⟨hname, houtcome⟩ := Prod.mk.inj heq
      exact ⟨pair.1, hpairs ▸ List.mem_map_of_mem hpair, hname, houtcome ▸ hbecomes pair hpair⟩

end Host

end TypedQuery
