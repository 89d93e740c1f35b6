import Mathlib.Data.List.ReduceOption
import TypedQuery.Proofs.Query.Invocations
import TypedQuery.Proofs.Query.Outcomes
import TypedQuery.Proofs.Query.Recording

/-!
# Calls in document order

Which routines the run of a mutation document calls, and in which order. The outcomes of the
fields wait under their response names. Of the fields with one name the last one is kept, in the
place of the first one, and what is kept is called one after another. So every mutation that can be
called is called once and in document order, if no two of its fields share a name.
-/

namespace TypedQuery

open Halting

/-- The caller may call the mutation, its arguments can be bound, and its services are
registered. -/
def PendingMutation.passes (pending : PendingMutation) (schema : Schema) (services : Services)
    (claims : Claims) : Bool :=
  (Schema.authorize pending.mutation.name pending.mutation.requirement? claims).isOk &&
    (schema.bindArguments pending.mutation.name pending.mutation.arguments
      pending.arguments).isOk &&
    (services.resolve pending.mutation.services).isOk

/-- A call of the routine of a mutation with the arguments and the services of the mutation. -/
def PendingMutation.Makes (schema : Schema) (services : Services) (claims : Claims)
    (pending : PendingMutation) (call : Call) : Prop :=
  call.mutation = pending.mutation ∧
    ∃ context world after, pending.mutation.invocation schema services claims context
      pending.arguments world = .ok call.invocation after

/-- What a field of a mutation document is prepared to, if it can be prepared. -/
def Selection.mutation? (scope : Scope) (selection : Selection) : Option PendingMutation :=
  match selection with
  | .field name _ arguments selections _ =>
    (prepareMutation scope [selection.responseName] name arguments selections).toOption
  | .spread _ _ => none

/-- The fields of a mutation document in their order, with fragments written out: under the
response name of each the mutation that it is prepared to. A selection whose fragments cannot be
written out is one field without a mutation. -/
def Document.mutations (document : Document) (scope : Scope) (selections : List Selection) :
    List (String × Option PendingMutation) :=
  selections.flatMap fun selection =>
    match document.expand selection with
    | .error _ => [(selection.responseName, none)]
    | .ok expanded => expanded.map fun field => (field.responseName, field.mutation? scope)

/-- In whatever context and world, exactly the mutations that pass are invoked. -/
theorem PendingMutation.passes_or_fails (pending : PendingMutation) (schema : Schema)
    (services : Services) (claims : Claims) (context : Value) (world : World) :
    (pending.passes schema services claims = true ∧ ∃ invocation after,
      pending.mutation.invocation schema services claims context pending.arguments world =
        .ok invocation after) ∨
    (pending.passes schema services claims = false ∧ ∃ halt after,
      pending.mutation.invocation schema services claims context pending.arguments world =
        .error halt after) := by
  unfold PendingMutation.passes
  rcases pending.mutation.invocation_cases schema services claims context pending.arguments world
    with ⟨fault, hrefused, hrun⟩ | ⟨hgranted, ⟨fault, hrefused, hrun⟩ | ⟨bound, hbound,
      ⟨service, hmissing, hrun⟩ | ⟨resolved, hresolved, hrun⟩⟩⟩
  · rw [hrefused]
    exact .inr ⟨rfl, _, _, hrun⟩
  · rw [hgranted, hrefused]
    exact .inr ⟨rfl, _, _, hrun⟩
  · rw [hgranted, hbound, hmissing]
    exact .inr ⟨rfl, _, _, hrun⟩
  · rw [hgranted, hbound, hresolved]
    exact .inl ⟨rfl, _, _, hrun⟩

section Execution

variable (host : Host) (services : Services) (claims : Claims)

/-- The calls are those of the mutations that pass, one for each and in their order. -/
def Follow (mutations : List PendingMutation) (calls : List Call) : Prop :=
  List.Forall₂ (PendingMutation.Makes host.schema services claims)
    (mutations.filter fun pending => pending.passes host.schema services claims) calls

/-- A mutation makes its call, if it passes, and no other. -/
theorem PendingMutation.recorded_adds (pending : PendingMutation) :
    (pending.recorded host services claims).Adds (Follow host services claims [pending])
      (Follow host services claims [pending]) := by
  refine .ofExecution_bind (fun world context after hcontext => ?_) fun world halt after h => by
    cases h
  cases hcontext
  unfold Follow
  rw [List.filter_singleton]
  refine .ofExecution_bind (fun later invocation after h => ?_) fun later halt after h => ?_
  · have hinvocation := mapFault_eq_ok.mp h
    rcases pending.passes_or_fails host.schema services claims world.store later with
      ⟨hpasses, -⟩ | ⟨-, _, _, hfails⟩
    · rw [hpasses]
      have hmakes : List.Forall₂ (Makes host.schema services claims) [pending]
          [⟨pending.mutation, invocation⟩] :=
        .cons ⟨rfl, world.store, later, after, hinvocation⟩ .nil
      refine .note_bind ?_ hmakes hmakes
      refine .silent_bind (.ofExecution _) (fun result => .silent_bind (.ofExecution _)
        (fun query => ?_) rfl) rfl
      cases result with
      | value value ty =>
        dsimp only
        rw [pure_bind]
        cases query.run services value with
        | ok value => exact .pure rfl
        | error fault => exact .fail rfl
      | requery expression vars =>
        refine .silent_bind (.ofExecution _) (fun context => ?_) rfl
        dsimp only
        cases query.run services context with
        | ok value => exact .pure rfl
        | error fault => exact .fail rfl
    · cases hfails.symm.trans hinvocation
  · rcases pending.passes_or_fails host.schema services claims world.store later with
      ⟨-, _, _, hinvoked⟩ | ⟨hpasses, -⟩
    · cases (mapFault_eq_ok.mpr hinvoked).symm.trans h
    · rw [hpasses]
      exact .nil

/-- The mutation that waits as an outcome, if there is one. -/
def Outcome.mutation? : Outcome → Option PendingMutation
  | .mutation pending => some pending
  | _ => none

variable {host services claims} in
/-- Calls follow their mutations part by part. -/
theorem Follow.append {first more : List PendingMutation} {calls others : List Call}
    (h : Follow host services claims first calls)
    (hmore : Follow host services claims more others) :
    Follow host services claims (first ++ more) (calls ++ others) := by
  unfold Follow
  rw [List.filter_append]
  exact List.rel_append h hmore

/-- The outcome of a field calls the mutation that waits, and nothing else. -/
theorem Outcome.recorded_adds (outcome : Outcome) (context : Value) (name : String) :
    (outcome.recorded host services claims context name).Adds
      (Follow host services claims outcome.mutation?.toList)
      (Follow host services claims outcome.mutation?.toList) := by
  have hnone : ∀ made, made = [] → Follow host services claims [] made := by
    rintro _ rfl
    exact .nil
  cases outcome with
  | mutation pending => exact pending.recorded_adds host services claims
  | query compiled =>
    exact .mono (.ofExecution ((query compiled).run host services claims context name)) hnone hnone
  | failed failure =>
    exact .mono (.ofExecution ((failed failure).run host services claims context name)) hnone hnone

/-- Outcomes call the mutations that wait, in their order, and a run that stops has called the first
ones of them. -/
theorem recordOutcomes_adds (context : Value) (outcomes : List (String × Outcome)) :
    (recordOutcomes host services claims context outcomes).Adds
      (Follow host services claims (outcomes.filterMap (·.2.mutation?)))
      (fun calls => ∃ begun, begun <+: outcomes.filterMap (·.2.mutation?) ∧
        Follow host services claims begun calls) := by
  induction outcomes with
  | nil => exact .pure .nil
  | cons entry rest ih =>
    have hfirst : (entry :: rest).filterMap (·.2.mutation?) =
        entry.2.mutation?.toList ++ rest.filterMap (·.2.mutation?) := by
      rw [List.filterMap_cons]
      cases entry.2.mutation? <;> rfl
    rw [hfirst]
    refine .bind (.attempt (entry.2.recorded_adds host services claims context entry.1))
      (fun result made hmade => ?_) fun made hmade => ⟨_, List.prefix_append _ _, hmade⟩
    have hmade : Follow host services claims entry.2.mutation?.toList made := hmade.elim id id
    refine .silent_bind .get (fun journal => .bind ih (fun results more hmore => ?_) ?_)
      ⟨_, List.prefix_append _ _, by rwa [List.append_nil]⟩
    · have hall := hmade.append hmore
      cases result with
      | ok json => exact .pure (by rwa [List.append_nil])
      | error failure => exact .pure (by rwa [List.append_nil])
    · rintro more ⟨begun, hbegun, hmore⟩
      exact ⟨_, (List.prefix_append_right_inj _).mpr hbegun, hmade.append hmore⟩

end Execution

/-- The outcome of a field waits for the mutation of the field. -/
theorem Selection.mutation?_outcome (scope : Scope) (selection : Selection) :
    (selection.outcome scope).mutation? = selection.mutation? scope := by
  cases selection with
  | spread name position => rfl
  | field name alias? arguments selections position =>
    unfold Selection.outcome Selection.mutation?
    dsimp only
    split
    · rename_i hprepare
      rw [hprepare]
      rfl
    · rename_i hprepare
      rw [hprepare]
      rfl

/-- The mutations that the fields of a document are prepared to are those among their outcomes. -/
theorem Document.mutations_eq (document : Document) (scope : Scope) (selections : List Selection) :
    document.mutations scope selections =
      Entries.mapValues Outcome.mutation? (document.outcomes scope selections) := by
  unfold Document.mutations Document.outcomes Entries.mapValues
  rw [List.map_flatMap]
  congr 1
  funext selection
  cases document.expand selection with
  | error fault => rfl
  | ok expanded => simp [Selection.mutation?_outcome]

/-- Outcomes make the calls of the mutations among them. -/
theorem reduceOption_mutations (outcomes : Entries Outcome) :
    (Entries.values (outcomes.mapValues Outcome.mutation?)).reduceOption =
      outcomes.filterMap (·.2.mutation?) := by
  unfold Entries.values Entries.mapValues List.reduceOption
  rw [List.map_map, List.filterMap_map]
  rfl

/-- Running a source text makes the calls of the mutations among fields, in their order, and a run
that stops has made the first ones. -/
def Host.Calls (host : Host) (services : Services) (source : String) (request : Request)
    (fields : Entries (Option PendingMutation)) : Prop :=
  (host.recorded services source request).Adds
    (Follow host services request.claims (Entries.values fields).reduceOption)
    fun calls => ∃ begun, begun <+: (Entries.values fields).reduceOption ∧
      Follow host services request.claims begun calls

/-- The run of a mutation document calls what waits under the names of the fields. -/
theorem Host.calls_ofList {host : Host} {source : String} {request : Request}
    {document : Document} {operation : Operation} {vars : Entries Value} (services : Services)
    (hread : Document.read source = .ok document)
    (hoperation : document.operation request.operation? = .ok operation)
    (hkind : operation.kind = .mutation)
    (hvars : host.schema.bindVariables operation.vars request.vars = .ok vars) :
    host.Calls services source request (Entries.ofList
      (document.mutations (host.scope vars) operation.selections)) := by
  let outcomes := Entries.ofList (document.outcomes (host.scope vars) operation.selections)
  have hcompiled : Recorded.ofExecution
      (Execution.ofRun (host.compileDocument source request)).attempt =
        (pure (.ok ⟨.mutation, outcomes, request.claims⟩) : Recorded Empty _) := by
    rw [Host.compileDocument_mutation hread hoperation hkind hvars]
    rfl
  unfold Host.Calls Host.recorded
  rw [hcompiled, pure_bind]
  unfold Host.recordExecution
  dsimp only
  rw [pure_bind, document.mutations_eq, Entries.ofList_mapValues, reduceOption_mutations]
  exact .bind (recordOutcomes_adds host services request.claims .null outcomes)
    (fun results made hmade => .pure (by rwa [List.append_nil])) fun made hmade => hmade

/-- The calls of a mutation document, which are noted where the routines are called, are those of
the fields that pass, once each and in document order, of fields with one name the last one in the
place of the first one. So no mutation is lost or reordered among fields with different names. A
run that stops has made the first calls. -/
theorem Host.calls_in_document_order {host : Host} {source : String} {request : Request}
    {document : Document} {operation : Operation} {vars : Entries Value} (services : Services)
    (hread : Document.read source = .ok document)
    (hoperation : document.operation request.operation? = .ok operation)
    (hkind : operation.kind = .mutation)
    (hvars : host.schema.bindVariables operation.vars request.vars = .ok vars) :
    let fields := document.mutations (host.scope vars) operation.selections
    (host.recorded services source request).Erases (host.run services source request) ∧
      host.Calls services source request (Entries.ofList fields) ∧
      ((Entries.names fields).Nodup → host.Calls services source request fields) := by
  intro fields
  have hcalls := host.calls_ofList services hread hoperation hkind hvars
  refine ⟨Recorded.erases_run host services source request, hcalls, fun hnames => ?_⟩
  rwa [Entries.ofList_of_nodup hnames] at hcalls

/-- Of three fields the third one has the name of the first one. -/
example : Entries.ofList [("a", 1), ("b", 2), ("a", 3)] = [("a", 3), ("b", 2)] := by decide

/-- Puts the name that it is given at the end of a list. -/
def signMutation : Mutation where
  name := "sign"
  contextTy := .any
  arguments := [⟨"name", .string, none⟩]
  services := []
  requirement? := none
  resultTy := .any
  routine invocation := do
    let world ← get
    match world.store with
    | .list names =>
      set { world with store := .list (names ++ [invocation.arguments]) }
      return .value .null .any
    | _ => throw "not a list"

/-- A host with a book that guests sign. -/
def guestHost : Host where
  schema := .ofParts "Query" [] [] [signMutation]
  methods := .standard
  depth := 1

/-- Two guests sign under two names. -/
def guestSource : String :=
  "mutation \x7b a: sign(name: \"Ann\") b: sign(name: \"Bob\") \x7d"

/-- The operation of a document without variables is a mutation with two fields of different
names. -/
def hasTwoMutations (host : Host) (document : Document) : Bool :=
  match document.operation none with
  | .ok ⟨.mutation, _, [], selections⟩ =>
    let fields := document.mutations (host.scope []) selections
    (Entries.names fields).Nodup && (Entries.values fields).reduceOption.length = 2
  | _ => false

/-- Two guests sign, each once and one after the other. -/
theorem Host.calls_in_document_order_guests :
    ∃ document operation, Document.read guestSource = .ok document ∧
      document.operation none = .ok operation ∧ operation.kind = .mutation ∧
      guestHost.schema.bindVariables operation.vars [] = .ok [] ∧
      let fields := document.mutations (guestHost.scope []) operation.selections
      (Entries.names fields).Nodup ∧ (Entries.values fields).reduceOption.length = 2 ∧
        guestHost.Calls [] guestSource .empty fields := by
  have hdocument : (Document.read guestSource).toOption.any (hasTwoMutations guestHost) = true := by
    decide +kernel
  cases hread : Document.read guestSource with
  | error fault => simp [hread, Except.toOption] at hdocument
  | ok document =>
    rw [hread] at hdocument
    change hasTwoMutations guestHost document = true at hdocument
    unfold hasTwoMutations at hdocument
    split at hdocument
    · rename_i name? selections hoperation
      rw [Bool.and_eq_true, decide_eq_true_iff, decide_eq_true_iff] at hdocument
      exact ⟨document, _, rfl, hoperation, rfl, rfl, hdocument.1, hdocument.2,
        (Host.calls_in_document_order [] hread hoperation rfl rfl).2.2 hdocument.1⟩
    · cases hdocument

end TypedQuery
