import TypedQuery.Proofs.Document.Paths
import TypedQuery.Proofs.Lockstep.Renaming
import TypedQuery.Proofs.Query.Discretion
import TypedQuery.Proofs.Query.FieldByField
import TypedQuery.Proofs.Authorization.Exact

/-!
# What the fields of a query answer

The fields at the top of a query share a session, in which parameters and record types are
numbered. A field answers the same in every session: its failure, or the result of its query on the
store. So the envelope of a query document shows what each part of the document answers by itself,
in the words that the record types of the final session have.
-/

namespace TypedQuery

open Halting

/-- What a query gives as a field of a document. -/
def Query.answer (query : Query) (host : Host) (services : Services) (context : Value)
    (name : String) : Except Failure Json :=
  match query.run services context with
  | .ok value => .ok (value.toJson (some host.schema))
  | .error fault => .error ⟨.run fault, [name]⟩

/-- A field at the top of a query is compiled on the context of the host. -/
def Host.compileField (host : Host) (claims : Claims) (vars : Entries Value) (field : Selection) :
    Run FieldFailure Node :=
  (host.scope vars).compileSelection .parameter claims [] (Scope.context host.schema.contextTy)
    field

/-- What a field at the top of a query answers, with its fragments written out. There is no answer
where computed fields refer to each other too deeply. The field is compiled in the first session. -/
def Host.answer? (host : Host) (services : Services) (claims : Claims) (context : Value)
    (vars : Entries Value) (field : Selection) : Option (Except Failure Json) :=
  match host.compileField claims vars field ⟨0, .empty⟩ with
  | .ok node _ =>
    some ((Query.ofNode node host.schema.contextTy).answer host services context field.responseName)
  | .error (.fault failure) _ => some (.error (.ofField failure))
  | .error .depth _ => none

/-- A part of an operation as it is compiled: a field with its fragments written out, or the fault
because of which fragments cannot be written out. -/
inductive Part
  | field (selection : Selection)
  | failed (name : String) (fault : CompileFault)

namespace Part

/-- The name under which the outcome of a part is kept. -/
def name : Part → String
  | .field selection => selection.responseName
  | .failed name _ => name

/-- What a part of a query answers. -/
def answer? (host : Host) (services : Services) (claims : Claims) (context : Value)
    (vars : Entries Value) : Part → Option (Except Failure Json)
  | .field selection => host.answer? services claims context vars selection
  | .failed name fault => some (.error (.ofField ⟨fault, [name]⟩))

/-- The outcome of a part of a query. -/
def compile (scope : Scope) (claims : Claims) : Part → Run Empty Outcome
  | .field selection => compileTopField scope .parameter claims .query selection
  | .failed name fault => return .failed ⟨fault, [name]⟩

end Part

/-- The parts of the selections of an operation, in their order. -/
def Document.parts (document : Document) (selections : List Selection) : List Part :=
  selections.flatMap fun selection =>
    match document.expand selection with
    | .error fault => [.failed selection.responseName fault]
    | .ok expanded => expanded.map .field

/-- Adds the outcomes of parts to those there are. -/
def compileParts (scope : Scope) (claims : Claims) :
    List Part → Entries Outcome → Run Empty (Entries Outcome)
  | [], outcomes => return outcomes
  | part :: rest, outcomes => do
    let outcome ← part.compile scope claims
    compileParts scope claims rest (Entries.insert outcomes part.name outcome)

section Compilation

variable (document : Document) (scope : Scope) (claims : Claims)

/-- Two lists of parts are compiled one after the other. -/
theorem compileParts_append (first rest : List Part) (outcomes : Entries Outcome) :
    compileParts scope claims (first ++ rest) outcomes =
      compileParts scope claims first outcomes >>= compileParts scope claims rest := by
  induction first generalizing outcomes with
  | nil => rfl
  | cons part more ih =>
    rw [List.cons_append]
    unfold compileParts
    rw [bind_assoc]
    congr 1
    funext outcome
    exact ih _

/-- The fields at the top of a query are compiled as its parts. -/
theorem compileTopFields_eq (fields : List Selection) (outcomes : Entries Outcome) :
    compileTopFields scope .parameter claims .query fields outcomes =
      compileParts scope claims (fields.map .field) outcomes := by
  induction fields generalizing outcomes with
  | nil => rfl
  | cons field rest ih =>
    rw [List.map_cons]
    unfold compileTopFields compileParts
    congr 1
    funext outcome
    exact ih _

/-- The outcomes of a query operation are those of its parts, one after another. -/
theorem compileSelections_eq (selections : List Selection) (outcomes : Entries Outcome) :
    compileSelections document scope .parameter claims .query selections outcomes =
      compileParts scope claims (document.parts selections) outcomes := by
  induction selections generalizing outcomes with
  | nil => rfl
  | cons selection rest ih =>
    unfold compileSelections Document.parts
    rw [List.flatMap_cons, compileParts_append]
    cases document.expand selection with
    | error fault => exact ih _
    | ok expanded =>
      dsimp only
      rw [compileTopFields_eq]
      congr 1
      funext more
      exact ih more

end Compilation

/-! ### Answers in every session -/

/-- Methods that compile alike in every session: they do not look at the names of parameters, and
what they build refers to nothing that is not bound. -/
structure MethodLibrary.Steady (library : MethodLibrary) : Prop where
  nameless : library.Nameless
  sound : library.Sound .none

/-- The standard methods compile alike in every session. -/
theorem MethodLibrary.steady_standard : standard.Steady where
  nameless := nameless_standard
  sound := sound_standard .none

section Answers

variable {host : Host} {services : Services} {claims : Claims} {context : Value}
  {vars : Entries Value}

/-- An outcome gives a result and leaves the world as it is. -/
def Outcome.Gives (outcome : Outcome) (host : Host) (services : Services) (claims : Claims)
    (context : Value) (name : String) (result : Except Failure Json) : Prop :=
  ∀ world, ((outcome.run host services claims context name).attempt : Execution Empty _) world =
    .ok result world

/-- The outcome that is a query gives its answer. -/
theorem Outcome.gives_query (query : Query) (name : String) :
    (Outcome.query query).Gives host services claims context name
      (query.answer host services context name) := by
  intro world
  unfold Outcome.run Query.answer
  dsimp only
  cases query.run services context with
  | ok value => rfl
  | error fault => rfl

/-- The outcome of a failure gives this failure. -/
theorem Outcome.gives_failed (failure : FieldFailure) (name : String) :
    (Outcome.failed failure).Gives host services claims context name
      (.error (.ofField failure)) :=
  fun _ => rfl

/-- A compilation ends with the outcome that an answer tells, or where the answer is missing. -/
def Answers (host : Host) (services : Services) (claims : Claims) (context : Value)
    (name : String) (run : Run Empty Outcome) : Option (Except Failure Json) → Prop
  | some result => ∀ session, ∃ outcome final, run session = .ok outcome final ∧
      outcome.Gives host services claims context name result
  | none => ∀ session, ∃ final, run session = .error .depth final

/-- The outcome of a field at the top of a query tells how the field compiles. -/
theorem compileTopField_eq (field : Selection) (session : Session) :
    compileTopField (host.scope vars) .parameter claims .query field session =
      match host.compileField claims vars field session with
      | .ok node final => .ok (.query (.ofNode node host.schema.contextTy)) final
      | .error (.fault failure) final => .ok (.failed failure) final
      | .error .depth final => .error .depth final := by
  unfold compileTopField
  cases hrun : host.compileField claims vars field session with
  | ok node final => exact bind_of_ok (attempt_eq_ok.mpr hrun)
  | error halt final =>
    cases halt with
    | fault failure => exact bind_of_ok (attempt_of_fault hrun)
    | depth => exact bind_of_error (attempt_of_depth hrun)

/-- In every session a field fails as in the first one, or compiles to the same query but for the
numbers of parameters. -/
theorem Host.compileField_sessions (hmethods : host.methods.Steady) (field : Selection)
    (session : Session) :
    (∃ node node' final final', host.compileField claims vars field ⟨0, .empty⟩ = .ok node final ∧
      host.compileField claims vars field session = .ok node' final' ∧
      (Query.ofNode node host.schema.contextTy).Renamed (.ofNode node' host.schema.contextTy)) ∨
    ∃ halt final final', host.compileField claims vars field ⟨0, .empty⟩ = .error halt final ∧
      host.compileField claims vars field session = .error halt final' := by
  have hfirst := apart_contextName 0
  have hsecond := apart_contextName session.parameters
  have huniform : (host.scope vars).methods.Uniform (.renamed hfirst hsecond) :=
    hmethods.nameless hfirst hsecond
  have hstart : (Likeness.renamed hfirst hsecond).sessions ⟨0, .empty⟩ session := ⟨0, rfl, rfl⟩
  rcases (Scope.compileSelection_lockstep (Likeness.parameter_alike hfirst hsecond) huniform
    claims (Likeness.root_alike hfirst hsecond host.schema.contextTy) [] field).outcome
      hstart with
    ⟨node, node', final, final', hrun, hrun', halike, _⟩ | ⟨halt, final, final', hrun, hrun', _⟩
  · exact .inl ⟨node, node', final, final', hrun, hrun', 0, session.parameters, node, node', _,
      halike, rfl, rfl⟩
  · exact .inr ⟨halt, final, final', hrun, hrun'⟩

/-- The query of a field is closed. -/
theorem Host.closed_of_compileField (hmethods : host.methods.Steady) {field : Selection}
    {node : Node} {session final : Session}
    (hrun : host.compileField claims vars field session = .ok node final) :
    (Query.ofNode node host.schema.contextTy).Closed := by
  have hsound := Host.sound_none vars hmethods.sound
  exact Query.closed_ofNode (Scope.compileSelection_ensures hsound.scope (hsound.grants claims)
    (Scope.good_context host.schema.contextTy) [] field
    (Selection.reads_of_forall hsound.reads field) _ _ _ hrun)

/-- A field gives its answer in every session. -/
theorem Host.answers_field (hmethods : host.methods.Steady) (field : Selection) :
    Answers host services claims context field.responseName
      (compileTopField (host.scope vars) .parameter claims .query field)
      (host.answer? services claims context vars field) := by
  unfold Host.answer?
  cases hrun : host.compileField claims vars field ⟨0, .empty⟩ with
  | ok node final =>
    intro session
    rcases host.compileField_sessions hmethods field session with
      ⟨_, node', _, final', hfirst, hsecond, hrenamed⟩ | ⟨_, _, _, hfirst, _⟩
    · cases hrun.symm.trans hfirst
      have hsame := hrenamed.run_eq (host.closed_of_compileField hmethods hrun) services context
      refine ⟨.query (.ofNode node' host.schema.contextTy), final', ?_, ?_⟩
      · rw [compileTopField_eq, hsecond]
      · unfold Query.answer
        rw [hsame]
        exact Outcome.gives_query _ _
    · cases hrun.symm.trans hfirst
  | error halt final =>
    have hsession : ∀ session, ∃ final',
        host.compileField claims vars field session = .error halt final' := by
      intro session
      rcases host.compileField_sessions hmethods field session with
        ⟨_, _, _, _, hfirst, _⟩ | ⟨_, _, final', hfirst, hsecond⟩
      · cases hrun.symm.trans hfirst
      · cases hrun.symm.trans hfirst
        exact ⟨final', hsecond⟩
    cases halt with
    | fault failure =>
      intro session
      obtain ⟨final', hfinal⟩ := hsession session
      exact ⟨.failed failure, final', by rw [compileTopField_eq, hfinal],
        Outcome.gives_failed failure _⟩
    | depth =>
      intro session
      obtain ⟨final', hfinal⟩ := hsession session
      exact ⟨final', by rw [compileTopField_eq, hfinal]⟩

variable (services claims context vars) in
/-- A part gives its answer in every session. -/
theorem Part.answers (hmethods : host.methods.Steady) (part : Part) :
    Answers host services claims context part.name (part.compile (host.scope vars) claims)
      (part.answer? host services claims context vars) := by
  cases part with
  | field selection => exact host.answers_field hmethods selection
  | failed name fault =>
    exact fun session => ⟨.failed ⟨fault, [name]⟩, session, rfl, Outcome.gives_failed _ _⟩

/-- Parts that all have answers compile to outcomes that give them. -/
theorem compileParts_answered (hmethods : host.methods.Steady) {parts : List Part}
    {answer : Part → Except Failure Json}
    (hanswer : ∀ part ∈ parts, part.answer? host services claims context vars = some (answer part))
    (outcomes : Entries Outcome) (session : Session) :
    ∃ pairs : List (String × Outcome × Except Failure Json), ∃ final,
      compileParts (host.scope vars) claims parts outcomes session =
          .ok (Entries.extend outcomes (Entries.mapValues Prod.fst pairs)) final ∧
        Entries.mapValues Prod.snd pairs = parts.map (fun part => (part.name, answer part)) ∧
        ∀ pair ∈ pairs, pair.2.1.Gives host services claims context pair.1 pair.2.2 := by
  induction parts generalizing outcomes session with
  | nil => exact ⟨[], session, rfl, rfl, fun _ h => absurd h List.not_mem_nil⟩
  | cons part rest ih =>
    obtain ⟨hpart, hrest⟩ := List.forall_mem_cons.mp hanswer
    have hends := part.answers services claims context vars hmethods
    rw [hpart] at hends
    obtain ⟨outcome, between, hrun, hgives⟩ := hends session
    obtain ⟨pairs, final, hmore, hanswers, hpairs⟩ :=
      ih hrest (Entries.insert outcomes part.name outcome) between
    refine ⟨(part.name, outcome, answer part) :: pairs, final, ?_, ?_,
      List.forall_mem_cons.mpr ⟨hgives, hpairs⟩⟩
    · unfold compileParts
      rw [bind_of_ok hrun]
      exact hmore
    · rw [List.map_cons, ← hanswers]
      rfl

/-- A part without an answer ends the compilation of all. -/
theorem compileParts_tooDeep (hmethods : host.methods.Steady) {parts : List Part}
    (hdeep : ∃ part ∈ parts, part.answer? host services claims context vars = none)
    (outcomes : Entries Outcome) (session : Session) :
    ∃ final, compileParts (host.scope vars) claims parts outcomes session =
      .error .depth final := by
  induction parts generalizing outcomes session with
  | nil =>
    obtain ⟨_, hmem, _⟩ := hdeep
    cases hmem
  | cons part rest ih =>
    have hends := part.answers services claims context vars hmethods
    unfold compileParts
    cases hpart : part.answer? host services claims context vars with
    | none =>
      rw [hpart] at hends
      obtain ⟨final, hrun⟩ := hends session
      exact ⟨final, bind_of_error hrun⟩
    | some result =>
      rw [hpart] at hends
      obtain ⟨outcome, between, hrun, _⟩ := hends session
      have hlater : ∃ part ∈ rest, part.answer? host services claims context vars = none := by
        obtain ⟨other, hmem, hother⟩ := hdeep
        rcases List.mem_cons.mp hmem with rfl | hmem
        · rw [hpart] at hother
          cases hother
        · exact ⟨other, hmem, hother⟩
      rw [bind_of_ok hrun]
      exact ih hlater _ between

end Answers

/-! ### Envelopes of answers -/

/-- What the data of an envelope show of an answer. -/
def shownEntry (entry : String × Except Failure Json) : String × Json :=
  match entry.2 with
  | .ok json => (entry.1, json)
  | .error _ => (entry.1, .null)

/-- What the errors of an envelope show of an answer, with the numbers of record types. -/
def shownError? (register : Register) (entry : String × Except Failure Json) : Option Json :=
  match entry.2 with
  | .ok _ => none
  | .error failure => some (errorEntry (failure.cause.message register) failure.path)

/-- The envelope that shows answers under their names. -/
def answerEnvelope (register : Register) (answers : Entries (Except Failure Json)) : Json :=
  envelope (.object (answers.map shownEntry)) (answers.filterMap (shownError? register))

section Running

variable {host : Host} {services : Services} {claims : Claims} {context : Value}
  {document : Document} {request : Request} {operation : Operation} {vars : Entries Value}

/-- Outcomes that give results leave the world as it is, and show these results. -/
theorem runOutcomes_gives {pairs : List (String × Outcome × Except Failure Json)}
    (hpairs : ∀ pair ∈ pairs, pair.2.1.Gives host services claims context pair.1 pair.2.2)
    (world : World) :
    runOutcomes host services claims context (Entries.mapValues Prod.fst pairs) world =
      .ok ((Entries.mapValues Prod.snd pairs).map shownEntry,
        (Entries.mapValues Prod.snd pairs).filterMap (shownError? world.register)) world := by
  induction pairs with
  | nil => rfl
  | cons pair rest ih =>
    obtain ⟨name, outcome, result⟩ := pair
    obtain ⟨hfirst, hrest⟩ := List.forall_mem_cons.mp hpairs
    refine (runOutcomes_cons (hfirst world) (ih hrest)).trans ?_
    cases result with
    | ok json => rfl
    | error failure => rfl

/-- A query operation compiles the parts of its selections. -/
theorem Host.compileOperation_query
    (hoperation : document.operation request.operation? = .ok operation)
    (hkind : operation.kind = .query)
    (hvars : host.schema.bindVariables operation.vars request.vars = .ok vars) :
    host.compileOperation document request = do
      let fields ← (compileParts (host.scope vars) request.claims
        (document.parts operation.selections) []).mapFault nofun
      return ⟨.query, fields, request.claims⟩ := by
  unfold Host.compileOperation
  simp only [hoperation, Halting.ofExcept, pure_bind, hvars, hkind]
  have hparts := compileSelections_eq document (host.scope vars) request.claims
    operation.selections []
  exact congrArg (fun run : Run Empty (Entries Outcome) => (do
    let fields ← run.mapFault nofun
    return ⟨.query, fields, request.claims⟩ : Compile CompiledDocument)) hparts

variable (services) in
/-- A document that compiles is run with the record types of its compilation. -/
theorem Host.runDocument_of_compiled {world : World} {compiled : CompiledDocument} {final : Session}
    (hcompiled : (host.compileOperation document request) ⟨0, world.register⟩ =
      .ok compiled final) :
    host.runDocument services document request world =
      host.execute services compiled ⟨world.store, final.register⟩ := by
  have hattempt : ((Execution.ofRun (host.compileOperation document request)).attempt :
      Execution Empty _) world = .ok (.ok compiled) ⟨world.store, final.register⟩ := by
    refine attempt_eq_ok.mpr ?_
    unfold Execution.ofRun
    rw [hcompiled]
  unfold Host.runDocument
  rw [bind_of_ok hattempt]

/-- Running outcomes that give results shows these results and leaves the world as it is. -/
theorem Host.execute_gives {pairs : List (String × Outcome × Except Failure Json)} {world : World}
    (hpairs : ∀ pair ∈ pairs, pair.2.1.Gives host services claims world.store pair.1 pair.2.2) :
    host.execute services ⟨.query, Entries.mapValues Prod.fst pairs, claims⟩ world =
      .ok (answerEnvelope world.register (Entries.mapValues Prod.snd pairs)) world := by
  have hfresh : Execution.freshContext world =
      (.ok world.store world : EStateM.Result (Halt Empty) World Value) :=
    rfl
  unfold Host.execute
  dsimp only
  rw [bind_of_ok hfresh, bind_of_ok (runOutcomes_gives hpairs world)]
  rfl

/-- The envelope of a query document shows the answers of its parts, of those with one name the last
one in the place of the first one. Nothing changes in the world but the record types. -/
theorem Host.runDocument_parts (hmethods : host.methods.Steady)
    (hoperation : document.operation request.operation? = .ok operation)
    (hkind : operation.kind = .query)
    (hvars : host.schema.bindVariables operation.vars request.vars = .ok vars) {world : World}
    {answer : Part → Except Failure Json}
    (hanswer : ∀ part ∈ document.parts operation.selections,
      part.answer? host services request.claims world.store vars = some (answer part)) :
    ∃ register, host.runDocument services document request world =
      .ok (answerEnvelope register (Entries.ofList
        ((document.parts operation.selections).map fun part => (part.name, answer part))))
        ⟨world.store, register⟩ := by
  obtain ⟨pairs, final, hrun, hanswers, hpairs⟩ :=
    compileParts_answered hmethods hanswer [] ⟨0, world.register⟩
  have hcompiled : (host.compileOperation document request) ⟨0, world.register⟩ =
      .ok ⟨.query, Entries.mapValues Prod.fst (Entries.ofList pairs), request.claims⟩ final := by
    rw [Host.compileOperation_query hoperation hkind hvars,
      bind_of_ok (mapFault_eq_ok.mpr hrun), ← Entries.ofList_mapValues]
    rfl
  refine ⟨final.register, ?_⟩
  rw [Host.runDocument_of_compiled services hcompiled, ← hanswers, Entries.ofList_mapValues]
  exact Host.execute_gives fun pair hpair => hpairs pair (Entries.mem_of_mem_ofList hpair)

/-- A query document with a part that has no answer does not end with an envelope. -/
theorem Host.runDocument_tooDeep (hmethods : host.methods.Steady)
    (hoperation : document.operation request.operation? = .ok operation)
    (hkind : operation.kind = .query)
    (hvars : host.schema.bindVariables operation.vars request.vars = .ok vars) {world : World}
    (hdeep : ∃ part ∈ document.parts operation.selections,
      part.answer? host services request.claims world.store vars = none) :
    ∃ register, host.runDocument services document request world =
      .error .depth ⟨world.store, register⟩ := by
  obtain ⟨final, hrun⟩ := compileParts_tooDeep hmethods hdeep [] ⟨0, world.register⟩
  have hcompile : (host.compileOperation document request) ⟨0, world.register⟩ =
      .error .depth final := by
    rw [Host.compileOperation_query hoperation hkind hvars]
    refine bind_of_error ?_
    unfold Halting.mapFault
    rw [hrun]
  have hattempt : ((Execution.ofRun (host.compileOperation document request)).attempt :
      Execution Empty _) world = .error .depth ⟨world.store, final.register⟩ := by
    refine attempt_of_depth ?_
    unfold Execution.ofRun
    rw [hcompile]
  unfold Host.runDocument
  exact ⟨final.register, bind_of_error hattempt⟩

end Running

end TypedQuery
