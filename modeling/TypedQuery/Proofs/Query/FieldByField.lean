import TypedQuery.Proofs.Query.Rejections

/-!
# Mutation documents field by field

A mutation document does what its fields do as documents of their own, one after another. What one
field needs of the document is its operation: the variables and the kind. Nothing else passes from
field to field but the world, which holds the store and the numbers of record types, and a field
that fails passes it on like any other.
-/

namespace TypedQuery

open Halting

/-- Compiles and runs an operation of a document. -/
def Host.runDocument (host : Host) (services : Services) (document : Document)
    (request : Request) : Execution Empty Json := do
  match ← (Execution.ofRun (host.compileOperation document request)).attempt with
  | .ok compiled => host.execute services compiled
  | .error fault => return failedEnvelope (← get).register fault

/-- A source text runs as the document that is read from it. -/
theorem Host.run_of_read {host : Host} {services : Services} {source : String} {request : Request}
    {document : Document} (hread : Document.read source = .ok document) :
    host.run services source request = host.runDocument services document request := by
  unfold Host.run Host.runDocument Host.compileDocument
  rw [hread]
  rfl

/-- The document that selects one field with an operation. -/
def Operation.alone (operation : Operation) (field : Selection) : Document :=
  ⟨[{ operation with selections := [field] }], []⟩

/-- The fields that an operation of a document selects, with fragments written out. -/
def Document.fields (document : Document) (operation : Operation) :
    Except CompileFault (List Selection) :=
  expandSelections (document.fragmentSelections (document.fragments.length + 1) [])
    operation.selections

namespace Json

/-- The members of the data of an envelope. -/
def envelopeData : Json → List (String × Json)
  | .object (("data", .object members) :: _) => members
  | _ => []

/-- The errors of an envelope. -/
def envelopeErrors : Json → List Json
  | .object [_, ("errors", .array errors)] => errors
  | _ => []

/-- The data of an envelope are those that it is made of. -/
@[simp] theorem envelopeData_envelope (data : List (String × Json)) (errors : List Json) :
    (envelope (.object data) errors).envelopeData = data :=
  rfl

/-- The errors of an envelope are those that it is made of. -/
@[simp] theorem envelopeErrors_envelope (data : Json) (errors : List Json) :
    (envelope data errors).envelopeErrors = errors := by
  cases errors with
  | nil => rfl
  | cons error rest => rfl

/-- The envelope with the data and the errors of several ones. -/
def joinEnvelopes (envelopes : List Json) : Json :=
  envelope (.object (envelopes.flatMap envelopeData)) (envelopes.flatMap envelopeErrors)

end Json

section Outcomes

variable {document : Document} {operation : Operation} {field : Selection}
  {fields : List Selection}

/-- The fields of an operation have no spreads in them. -/
theorem Document.fields_written (hfields : document.fields operation = .ok fields) :
    ∀ field ∈ fields, field.Written :=
  expandSelections_written (document.fragmentSelections_written _ _) _ fields hfields

/-- The outcomes of a document whose fragments can be written out are those of its fields. -/
theorem Document.outcomes_of_fields (scope : Scope)
    (hfields : document.fields operation = .ok fields) :
    document.outcomes scope operation.selections =
      fields.map fun field => (field.responseName, field.outcome scope) := by
  unfold Document.fields at hfields
  generalize operation.selections = selections at hfields
  induction selections generalizing fields with
  | nil =>
    cases hfields
    rfl
  | cons selection rest ih =>
    unfold expandSelections at hfields
    cases hexpand : document.expand selection with
    | error fault =>
      unfold Document.expand at hexpand
      rw [hexpand] at hfields
      cases hfields
    | ok first =>
      have hfirst := hexpand
      unfold Document.expand at hfirst
      rw [hfirst] at hfields
      cases hothers : expandSelections
          (document.fragmentSelections (document.fragments.length + 1) []) rest with
      | error fault =>
        rw [hothers] at hfields
        cases hfields
      | ok others =>
        rw [hothers] at hfields
        cases hfields
        have hrest := ih hothers
        unfold Document.outcomes at hrest ⊢
        rw [List.flatMap_cons, hrest, hexpand, List.map_append]

/-- A field that has been written out is the only field of its document. -/
theorem Operation.alone_fields (hfield : field.Written) :
    (operation.alone field).fields { operation with selections := [field] } = .ok [field] := by
  refine expandSelections_of_written [field] fun selection hmem => ?_
  rw [List.mem_singleton.mp hmem]
  exact hfield

/-- The document that has only the operation that is meant, with other selections, has it. -/
theorem Document.operation_singleton {name? : Option String} (selections : List Selection)
    (fragments : List Fragment) (hoperation : document.operation name? = .ok operation) :
    (Document.mk [{ operation with selections := selections }] fragments).operation name? =
      .ok { operation with selections := selections } := by
  unfold Document.operation at hoperation ⊢
  cases name? with
  | none => rfl
  | some name =>
    dsimp only at hoperation ⊢
    split at hoperation
    · rename_i found hfound
      cases hoperation
      have hname : decide (operation.name? = some name) = true :=
        List.find?_some (p := fun operation : Operation => decide (operation.name? = some name))
          hfound
      simp [of_decide_eq_true hname]
    · cases hoperation

/-- The document of one field has the operation that is meant. -/
theorem Operation.alone_operation {name? : Option String}
    (hoperation : document.operation name? = .ok operation) :
    (operation.alone field).operation name? =
      .ok { operation with selections := [field] } :=
  Document.operation_singleton [field] [] hoperation

end Outcomes

section Running

variable {host : Host} {services : Services} {claims : Claims} {context : Value}

/-- The first outcome runs by itself, and then the others. -/
theorem runOutcomes_split (entry : String × Outcome) (rest : List (String × Outcome)) :
    runOutcomes host services claims context (entry :: rest) = do
      let first ← runOutcomes host services claims context [entry]
      let others ← runOutcomes host services claims context rest
      return (first.1 ++ others.1, first.2 ++ others.2) := by
  obtain ⟨name, outcome⟩ := entry
  simp only [runOutcomes, bind_assoc, pure_bind]
  congr 1
  funext result
  congr 1
  funext world
  cases result with
  | ok json => simp
  | error failure => simp

/-- The envelope of a mutation document is that of its first field joined with that of the
others. -/
theorem execute_cons (entry : String × Outcome) (rest : List (String × Outcome)) :
    host.execute services ⟨.mutation, entry :: rest, claims⟩ = do
      let first ← host.execute services ⟨.mutation, [entry], claims⟩
      let others ← host.execute services ⟨.mutation, rest, claims⟩
      return Json.joinEnvelopes [first, others] := by
  unfold Host.execute
  simp only [pure_bind]
  rw [runOutcomes_split]
  simp [Json.joinEnvelopes]

/-- Envelopes are joined one by one. -/
theorem Json.joinEnvelopes_cons (first : Json) (others : List Json) :
    joinEnvelopes [first, joinEnvelopes others] = joinEnvelopes (first :: others) := by
  simp [joinEnvelopes]

end Running

section Documents

variable {host : Host} {services : Services} {request : Request} {document : Document}
  {operation : Operation} {vars : Entries Value} {fields : List Selection} {field : Selection}

/-- A document whose variables cannot be bound fails as a whole. -/
theorem Host.runDocument_unbound {fault : CompileFault}
    (hoperation : document.operation request.operation? = .ok operation)
    (hvars : host.schema.bindVariables operation.vars request.vars = .error fault) (world : World) :
    host.runDocument services document request world =
      .ok (failedEnvelope world.register fault) world := by
  have hcompiled : host.compileOperation document request = Halting.fail fault := by
    unfold Host.compileOperation
    simp only [hoperation, Halting.ofExcept, pure_bind, hvars]
    rfl
  unfold Host.runDocument
  rw [hcompiled]
  rfl

/-- A mutation document runs what its fields are prepared to. -/
theorem Host.runDocument_mutation
    (hoperation : document.operation request.operation? = .ok operation)
    (hkind : operation.kind = .mutation)
    (hvars : host.schema.bindVariables operation.vars request.vars = .ok vars) :
    host.runDocument services document request =
      host.execute services ⟨.mutation,
        Entries.ofList (document.outcomes (host.scope vars) operation.selections),
        request.claims⟩ := by
  unfold Host.runDocument
  rw [Host.compileOperation_mutation hoperation hkind hvars]
  rfl

variable (host services) in
/-- The document of one field runs what the field is prepared to. -/
theorem Host.runDocument_alone
    (hoperation : document.operation request.operation? = .ok operation)
    (hkind : operation.kind = .mutation)
    (hvars : host.schema.bindVariables operation.vars request.vars = .ok vars)
    (hfield : field.Written) :
    host.runDocument services (operation.alone field) request =
      host.execute services
        ⟨.mutation, [(field.responseName, field.outcome (host.scope vars))], request.claims⟩ := by
  have houtcomes := Document.outcomes_of_fields (host.scope vars)
    (operation.alone_fields hfield)
  rw [Host.runDocument_mutation (Operation.alone_operation hoperation) hkind hvars, houtcomes]
  rfl

/-- Running what fields are prepared to is running the document of each field, one after another. -/
theorem Host.execute_fields
    (hoperation : document.operation request.operation? = .ok operation)
    (hkind : operation.kind = .mutation)
    (hvars : host.schema.bindVariables operation.vars request.vars = .ok vars)
    (hwritten : ∀ field ∈ fields, field.Written) :
    host.execute services ⟨.mutation,
        fields.map fun field => (field.responseName, field.outcome (host.scope vars)),
        request.claims⟩ = do
      let envelopes ← fields.mapM fun field =>
        host.runDocument services (operation.alone field) request
      return Json.joinEnvelopes envelopes := by
  induction fields with
  | nil => rfl
  | cons field rest ih =>
    have hfirst := Host.runDocument_alone host services hoperation hkind hvars
      (hwritten field List.mem_cons_self)
    have hrest := ih fun other hmem => hwritten other (List.mem_cons_of_mem _ hmem)
    rw [List.map_cons, execute_cons, hrest, List.mapM_cons, hfirst]
    simp [Json.joinEnvelopes_cons]

/-- The document of one field ends as the mutation that the field is prepared to. -/
theorem Host.runDocument_alone_eq_ok {pending : PendingMutation} {world final : World} {json : Json}
    (hoperation : document.operation request.operation? = .ok operation)
    (hkind : operation.kind = .mutation)
    (hvars : host.schema.bindVariables operation.vars request.vars = .ok vars)
    (hfield : field.Written) (houtcome : field.outcome (host.scope vars) = .mutation pending) :
    host.runDocument services (operation.alone field) request world = .ok json final ↔
      ∃ result, pending.Ends host services request.claims world result final ∧
        json =
          FieldRun.envelope [⟨field.responseName, .mutation pending, world, result, final⟩] := by
  rw [Host.runDocument_alone host services hoperation hkind hvars hfield, houtcome]
  rw [Host.execute_mutation_eq_ok]
  constructor
  · rintro ⟨runs, hruns, rfl⟩
    cases hruns with
    | cons hfirst hrest =>
      cases hrest
      exact ⟨_, PendingMutation.ends_iff.mp hfirst, rfl⟩
  · rintro ⟨result, hends, rfl⟩
    exact ⟨_, .cons (PendingMutation.ends_iff.mpr hends) .nil, rfl⟩

/-- The document of a field that is refused ends, and leaves what the refusal leaves. -/
theorem Host.runDocument_alone_refused {world after : World} {failure : FieldFailure}
    (hoperation : document.operation request.operation? = .ok operation)
    (hkind : operation.kind = .mutation)
    (hvars : host.schema.bindVariables operation.vars request.vars = .ok vars)
    (hfield : field.Written)
    (hrefused : (field.outcome (host.scope vars)).Refused host services request.claims world
      failure after) :
    host.runDocument services (operation.alone field) request world =
      .ok (envelope (.object [(field.responseName, .null)])
        [errorEntry (failure.fault.message after.register) failure.path]) after := by
  let outcome := field.outcome (host.scope vars)
  have hrun : ((outcome.run host services request.claims .null field.responseName).attempt :
      Execution Empty _) world = .ok (.error (.ofField failure)) after :=
    attempt_of_fault hrefused.run
  rw [Host.runDocument_alone host services hoperation hkind hvars hfield,
    Host.execute_mutation_eq_ok]
  exact ⟨_, .cons hrun .nil, rfl⟩

/-- The run of a mutation document whose fields have different names is the run of its fields as
documents of their own, one after another, each in the world that the one before has left: the
envelope has their data and errors in their order. A document whose variables cannot be bound fails
as a whole, and so does that of each field. A mutation gets its context from the store as it is when
its field runs, and a re-query gets the store that the routine has left. A field that is refused
leaves the store as it was, and the record types too, but that a missing service is found after the
arguments have got theirs. The fields after it run in the world that it leaves. -/
theorem Host.run_field_by_field (host : Host) (services : Services) (source : String)
    (request : Request) {document : Document} {operation : Operation} {fields : List Selection}
    (hread : Document.read source = .ok document)
    (hoperation : document.operation request.operation? = .ok operation)
    (hkind : operation.kind = .mutation)
    (hfields : document.fields operation = .ok fields)
    (hnames : (fields.map Selection.responseName).Nodup) :
    match host.schema.bindVariables operation.vars request.vars with
    | .error fault => ∀ world,
      host.run services source request world = .ok (failedEnvelope world.register fault) world ∧
        ∀ field ∈ fields, host.runDocument services (operation.alone field) request world =
          .ok (failedEnvelope world.register fault) world
    | .ok vars =>
      (host.run services source request = do
        let envelopes ← fields.mapM fun field =>
          host.runDocument services (operation.alone field) request
        return Json.joinEnvelopes envelopes) ∧
      ∀ field ∈ fields, ∀ world,
        (∀ pending, field.outcome (host.scope vars) = .mutation pending → ∀ json final,
          host.runDocument services (operation.alone field) request world = .ok json final ↔
            ∃ result, pending.Ends host services request.claims world result final ∧
              json = FieldRun.envelope
                [⟨field.responseName, .mutation pending, world, result, final⟩]) ∧
        ∀ failure after, (field.outcome (host.scope vars)).Refused host services request.claims
            world failure after →
          host.runDocument services (operation.alone field) request world =
              .ok (envelope (.object [(field.responseName, .null)])
                [errorEntry (failure.fault.message after.register) failure.path]) after ∧
            after.store = world.store ∧
            (after = world ∨
              (field.outcome (host.scope vars)).Unserved failure.fault world after) := by
  have hwritten := Document.fields_written hfields
  rw [Host.run_of_read hread]
  cases hvars : host.schema.bindVariables operation.vars request.vars with
  | error fault =>
    intro world
    refine ⟨Host.runDocument_unbound hoperation hvars world, fun field hmem => ?_⟩
    exact Host.runDocument_unbound (Operation.alone_operation hoperation) hvars world
  | ok vars =>
    refine ⟨?_, fun field hmem world => ⟨fun pending houtcome json final => ?_,
      fun failure after hrefused => ⟨?_, hrefused.store_eq, hrefused.eq_or_unserved⟩⟩⟩
    · have hdistinct : (Entries.names (fields.map fun field =>
          (field.responseName, field.outcome (host.scope vars)))).Nodup := by
        unfold Entries.names
        rw [List.map_map]
        exact hnames
      rw [Host.runDocument_mutation hoperation hkind hvars,
        Document.outcomes_of_fields (host.scope vars) hfields, Entries.ofList_of_nodup hdistinct]
      exact Host.execute_fields hoperation hkind hvars hwritten
    · exact Host.runDocument_alone_eq_ok hoperation hkind hvars (hwritten field hmem) houtcome
    · exact Host.runDocument_alone_refused hoperation hkind hvars (hwritten field hmem) hrefused

end Documents

/-- The first guest is refused, and the guests of a fragment enter. -/
def partySource : String :=
  "mutation \x7b a: enter(nick: \"Ann\") ...others \x7d fragment others on Mutation " ++
    "\x7b b: enter(name: \"Bob\") \x7b name \x7d c: enter(name: \"Cid\") \x7d"

/-- An operation selects three fields of different names. -/
def Document.hasThreeFields (document : Document) (operation : Operation) : Bool :=
  (document.fields operation).toOption.any fun fields =>
    fields.length = 3 && (fields.map Selection.responseName).Nodup

/-- Three guests come one after another. -/
theorem Host.run_field_by_field_party :
    ∃ document operation fields, Document.read partySource = .ok document ∧
      document.operation none = .ok operation ∧ operation.kind = .mutation ∧
      document.fields operation = .ok fields ∧ fields.length = 3 ∧
      (fields.map Selection.responseName).Nodup ∧
      doorHost.run [] partySource .empty = do
        let envelopes ← fields.mapM fun field =>
          doorHost.runDocument [] (operation.alone field) .empty
        return Json.joinEnvelopes envelopes := by
  obtain ⟨document, operation, hread, hoperation, hkind, hvars, hthree⟩ :=
    exists_of_startsWithMutation
      (show startsWithMutation partySource Document.hasThreeFields = true by decide +kernel)
  unfold Document.hasThreeFields at hthree
  cases hfields : document.fields operation with
  | error fault => simp [hfields, Except.toOption] at hthree
  | ok fields =>
    rw [hfields] at hthree
    obtain ⟨hlength, hnames⟩ := Bool.and_eq_true_iff.mp hthree
    have hrun := doorHost.run_field_by_field [] partySource .empty hread hoperation hkind hfields
      (of_decide_eq_true hnames)
    change match doorHost.schema.bindVariables operation.vars [] with
      | .error _ => _
      | .ok _ => _ at hrun
    rw [hvars] at hrun
    exact ⟨document, operation, fields, hread, hoperation, hkind, hfields,
      of_decide_eq_true hlength, of_decide_eq_true hnames, hrun.1⟩

end TypedQuery
