import TypedQuery.Method.Standard
import TypedQuery.Proofs.Query.Fields

/-!
# What a rejected mutation leaves

A field of a mutation document can be rejected at two times. It is refused before its routine is
called if it cannot be prepared, if the caller may not call it, or if its arguments or services are
not there, and then the store stays as it was. So do the record types, but that a missing service is
found after the arguments have got theirs. The field is rejected after its routine has returned if
the re-query or the selections on the result do not compile, and then what the routine has done
stays: the type of a result is known when there is one.
-/

namespace TypedQuery

open Halting

namespace Outcome

variable {outcome : Outcome} {host : Host} {services : Services} {claims : Claims} {context : Value}
  {name : String} {world after : World} {failure : FieldFailure}

/-- A field is refused before a routine is called, and the world that this leaves: it cannot be
prepared, or its mutation is not invoked in the context that it finds. -/
inductive Refused (outcome : Outcome) (host : Host) (services : Services) (claims : Claims)
    (world : World) : FieldFailure → World → Prop
  | unprepared {failure : FieldFailure} (houtcome : outcome = .failed failure) :
      Refused outcome host services claims world failure world
  | uninvoked {pending : PendingMutation} {fault : CompileFault} {refused : World}
      (houtcome : outcome = .mutation pending)
      (hinvocation : pending.mutation.invocation host.schema services claims world.store
        pending.arguments world = .error (.fault fault) refused) :
      Refused outcome host services claims world ⟨fault, pending.path⟩ refused

/-- A mutation finds a service missing when its arguments have got their record type. -/
def Unserved (outcome : Outcome) (fault : CompileFault) (world after : World) : Prop :=
  ∃ pending service, outcome = .mutation pending ∧ fault = .missingService service ∧
    after = pending.mutation.registered world

/-- A field is rejected after its routine has returned and has left a world: what should be selected
from the result does not compile. -/
inductive Rejected (outcome : Outcome) (host : Host) (services : Services) (claims : Claims)
    (world called : World) : FieldFailure → Prop
  | unselected {pending : PendingMutation} {invocation : Invocation} {result : MutationResult}
      {invoked : World} {session : Session} {failure : FieldFailure}
      (houtcome : outcome = .mutation pending)
      (hinvocation : pending.mutation.invocation host.schema services claims world.store
        pending.arguments world = .ok invocation invoked)
      (hroutine : pending.mutation.routine invocation invoked = .ok result called)
      (hquery : pending.resultQuery host claims result ⟨0, called.register⟩ =
        .error (.fault failure) session) :
      Rejected outcome host services claims world called failure

/-- A field that is refused fails with its refusal. -/
theorem Refused.run (h : outcome.Refused host services claims world failure after) :
    outcome.run host services claims context name world =
      .error (.fault (.ofField failure)) after := by
  cases h with
  | unprepared houtcome =>
    rw [houtcome]
    rfl
  | uninvoked houtcome hinvocation =>
    rw [houtcome]
    exact PendingMutation.run_refused hinvocation

/-- A refusal leaves the world as it was, but for the record type of the arguments where a service
is missing. -/
theorem Refused.eq_or_unserved (h : outcome.Refused host services claims world failure after) :
    after = world ∨ outcome.Unserved failure.fault world after := by
  cases h with
  | unprepared houtcome => exact .inl rfl
  | @uninvoked pending fault refused houtcome hinvocation =>
    obtain ⟨_, hfault, hafter⟩ := Mutation.invocation_eq_error hinvocation
    cases hfault
    exact hafter.imp_right fun ⟨service, hservice, hregistered⟩ =>
      ⟨pending, service, houtcome, hservice, hregistered⟩

/-- A refusal leaves the store as it was. -/
theorem Refused.store_eq (h : outcome.Refused host services claims world failure after) :
    after.store = world.store := by
  rcases h.eq_or_unserved with rfl | ⟨pending, service, -, -, rfl⟩
  · rfl
  · exact pending.mutation.store_registered world

/-- A field that the compiler rejects was refused, or was rejected after its routine returned, which
leaves the store to the routine. -/
theorem refused_or_rejected
    (hrun : ((outcome.run host services claims context name).attempt : Execution Empty _) world =
      .ok (.error (.ofField failure)) after) :
    outcome.Refused host services claims world failure after ∨
      ∃ called, outcome.Rejected host services claims world called failure ∧
        after.store = called.store := by
  obtain ⟨fault, path⟩ := failure
  cases outcome with
  | failed found =>
    obtain ⟨_, _⟩ := found
    cases hrun
    exact .inl (.unprepared rfl)
  | query compiled =>
    dsimp only [Outcome.run, attempt] at hrun
    cases hvalue : compiled.run services context with
    | ok value =>
      rw [hvalue] at hrun
      cases hrun
    | error fault =>
      rw [hvalue] at hrun
      cases hrun
  | mutation pending =>
    have hends := PendingMutation.ends_iff.mp hrun
    cases hends with
    | refused hinvocation => exact .inl (.uninvoked rfl hinvocation)
    | rejected hinvocation hroutine hquery =>
      exact .inr ⟨_, .unselected rfl hinvocation hroutine hquery, rfl⟩

end Outcome

/-- In the run of a mutation document, a field that the compiler rejects before its routine is
called leaves the store as it was, and the record types too, but that a missing service is found
after the arguments have got theirs. One that is rejected because of its result leaves the store as
the routine has left it. -/
theorem Host.rejected_leaves_store {host : Host} {services : Services} {source : String}
    {request : Request} {document : Document} {operation : Operation} {vars : Entries Value}
    {world final : World} {json : Json}
    (hread : Document.read source = .ok document)
    (hoperation : document.operation request.operation? = .ok operation)
    (hkind : operation.kind = .mutation)
    (hvars : host.schema.bindVariables operation.vars request.vars = .ok vars)
    (hrun : host.run services source request world = .ok json final) :
    ∃ runs, host.Runs services request.claims .null
        (Entries.ofList (document.outcomes (host.scope vars) operation.selections)) world runs
        final ∧
      json = FieldRun.envelope runs ∧
      ∀ run ∈ runs, ∀ failure, run.result = .error (.ofField failure) →
        (run.outcome.Refused host services request.claims run.before failure run.after ∧
            run.after.store = run.before.store ∧
            (run.after = run.before ∨
              run.outcome.Unserved failure.fault run.before run.after)) ∨
          ∃ called, run.outcome.Rejected host services request.claims run.before called failure ∧
            run.after.store = called.store := by
  obtain ⟨runs, hruns, hjson⟩ := (run_mutation_eq_ok hread hoperation hkind hvars).mp hrun
  refine ⟨runs, hruns, hjson, fun run hmem failure hresult => ?_⟩
  have hrun := (hruns.of_mem hmem).2
  rw [hresult] at hrun
  exact (Outcome.refused_or_rejected hrun).imp_left fun hrefused =>
    ⟨hrefused, hrefused.store_eq, hrefused.eq_or_unserved⟩

/-- Enters a guest at the end of a list and hands the guest back. -/
def enterMutation : Mutation where
  name := "enter"
  contextTy := .any
  arguments := [⟨"name", .string, none⟩]
  services := []
  requirement? := none
  resultTy := .object "Guest"
  routine invocation := do
    let world ← get
    match world.store, invocation.arguments with
    | .list guests, .record _ [name] =>
      let guest := .object "Guest" [("name", name)]
      set { world with store := .list (guests ++ [guest]) }
      return .value guest (.object "Guest")
    | _, _ => throw "not a list"

/-- A host with a list of guests, who have names. -/
def doorHost : Host where
  schema := .ofParts "Query" [] [.ofFields "Guest" none [.ofMember "name" .string]] [enterMutation]
  methods := .standard
  depth := 1

/-- The door before any guest. -/
def emptyDoor : World := ⟨.list [], .process⟩

/-- A source text is a document that starts with a mutation without variables, which passes a
test. -/
def startsWithMutation (source : String) (test : Document → Operation → Bool) : Bool :=
  match Document.read source with
  | .error _ => false
  | .ok document =>
    match document.operation none with
    | .error _ => false
    | .ok operation =>
      operation.kind = .mutation && operation.vars.isEmpty && test document operation

/-- A document that starts with a mutation without variables has an operation whose variables are
bound to nothing. -/
theorem exists_of_startsWithMutation {source : String} {test : Document → Operation → Bool}
    (h : startsWithMutation source test = true) :
    ∃ document operation, Document.read source = .ok document ∧
      document.operation none = .ok operation ∧ operation.kind = .mutation ∧
      (∀ schema : Schema, schema.bindVariables operation.vars [] = .ok []) ∧
      test document operation = true := by
  unfold startsWithMutation at h
  split at h
  · cases h
  · rename_i document hread
    split at h
    · cases h
    · rename_i operation hoperation
      rw [Bool.and_eq_true, Bool.and_eq_true, decide_eq_true_iff, List.isEmpty_iff] at h
      obtain ⟨⟨hkind, hnone⟩, htest⟩ := h
      refine ⟨document, operation, hread, hoperation, hkind, fun schema => ?_, htest⟩
      rw [hnone]
      rfl

/-- A guest of whom a field is wanted that guests do not have. -/
def shoeSource : String :=
  "mutation \x7b enter(name: \"Bob\") \x7b shoeSize \x7d \x7d"

/-- The only field of an operation is rejected at the empty door, and there is a guest after it. -/
def entersRejected (document : Document) (operation : Operation) : Bool :=
  match Entries.ofList (document.outcomes (doorHost.scope []) operation.selections) with
  | [(name, outcome)] =>
    match ((outcome.run doorHost [] .none .null name).attempt : Execution Empty _) emptyDoor with
    | .ok (.error ⟨.compile _, _⟩) ⟨.list [_], _⟩ => true
    | _ => false
  | _ => false

/-- A field that is rejected because of its result has changed the store: the guest is there. -/
theorem Host.rejected_changes_store :
    ∃ document operation, Document.read shoeSource = .ok document ∧
      document.operation none = .ok operation ∧ operation.kind = .mutation ∧
      doorHost.schema.bindVariables operation.vars [] = .ok [] ∧
      ∃ runs json final, doorHost.run [] shoeSource .empty emptyDoor = .ok json final ∧
        doorHost.Runs [] .none .null
          (Entries.ofList (document.outcomes (doorHost.scope []) operation.selections)) emptyDoor
          runs final ∧
        ∃ run ∈ runs, ∃ failure, run.result = .error (.ofField failure) ∧
          run.after.store ≠ run.before.store := by
  obtain ⟨document, operation, hread, hoperation, hkind, hvars, henters⟩ :=
    exists_of_startsWithMutation (show startsWithMutation shoeSource entersRejected = true by
      decide +kernel)
  unfold entersRejected at henters
  split at henters
  · rename_i name outcome houtcomes
    split at henters
    · rename_i fault path guest register hrun
      let run : FieldRun :=
        ⟨name, outcome, emptyDoor, .error ⟨.compile fault, path⟩, ⟨.list [guest], register⟩⟩
      have hruns : doorHost.Runs [] .none .null [(name, outcome)] emptyDoor [run] run.after :=
        .cons hrun .nil
      rw [← houtcomes] at hruns
      exact ⟨document, operation, hread, hoperation, hkind, hvars _, [run], _, run.after,
        (Host.run_mutation_eq_ok hread hoperation hkind (hvars _)).mpr ⟨_, hruns, rfl⟩, hruns, run,
        List.mem_singleton_self run, ⟨fault, path⟩, rfl, fun h => by cases h⟩
    · cases henters
  · cases henters

/-- The first guest gives an argument that is unknown, and of the second one a field is wanted that
guests do not have. -/
def doorSource : String :=
  "mutation \x7b a: enter(nick: \"Ann\") b: enter(name: \"Bob\") \x7b shoeSize \x7d \x7d"

/-- An envelope with two errors. -/
def Json.hasTwoErrors : Json → Bool
  | .object [_, ("errors", .array [_, _])] => true
  | _ => false

/-- The first guest is refused, and the second one is rejected. -/
theorem Host.rejected_leaves_store_door :
    ∃ document operation json final, Document.read doorSource = .ok document ∧
      document.operation none = .ok operation ∧ operation.kind = .mutation ∧
      doorHost.schema.bindVariables operation.vars [] = .ok [] ∧
      doorHost.run [] doorSource .empty emptyDoor = .ok json final ∧ json.hasTwoErrors = true ∧
      ∃ runs, doorHost.Runs [] .none .null
          (Entries.ofList (document.outcomes (doorHost.scope []) operation.selections)) emptyDoor
          runs final ∧
        json = FieldRun.envelope runs ∧
        ∀ run ∈ runs, ∀ failure, run.result = .error (.ofField failure) →
          (run.outcome.Refused doorHost [] .none run.before failure run.after ∧
              run.after.store = run.before.store ∧
              (run.after = run.before ∨
                run.outcome.Unserved failure.fault run.before run.after)) ∨
            ∃ called, run.outcome.Rejected doorHost [] .none run.before called failure ∧
              run.after.store = called.store := by
  obtain ⟨document, operation, hread, hoperation, hkind, hvars, -⟩ :=
    exists_of_startsWithMutation (show startsWithMutation doorSource (fun _ _ => true) = true by
      decide +kernel)
  obtain ⟨json, final, hrun, herrors⟩ := exists_of_yields
    (show (doorHost.run [] doorSource .empty).yields emptyDoor Json.hasTwoErrors = true by
      decide +kernel)
  exact ⟨document, operation, json, final, hread, hoperation, hkind, hvars _, hrun, herrors,
    Host.rejected_leaves_store hread hoperation hkind (hvars _) hrun⟩

end TypedQuery
