import TypedQuery.Proofs.Authorization.Results
import TypedQuery.Proofs.Query.Running

/-!
# Fields that are denied

A field that gives objects whose type the caller may not see is denied. The type is looked at where
the field of a query is compiled, with or without a selection set, and where something is selected
from the result of a mutation. The result of a mutation from which nothing is selected is handed
over unseen, and so is what comes out of lists of lists.
-/

namespace TypedQuery

open Halting

namespace MutationResult

/-- The variables with which something is selected from a result. -/
def vars : MutationResult → Entries Value
  | .value _ _ => []
  | .requery _ vars => vars

/-- The type of the context in which something is selected from a result. -/
def ty (mutation : Mutation) : MutationResult → Ty
  | .value _ ty => ty
  | .requery _ _ => mutation.contextTy

end MutationResult

namespace PendingMutation

variable {pending : PendingMutation} {host : Host} {claims : Claims} {result : MutationResult}
  {node : Node} {session between final : Session} {name : String} {unmet : List (List String)}

/-- The node of the result of a mutation: the value that was handed back, or what the re-query
compiles to. -/
def resultNode (pending : PendingMutation) (host : Host) : MutationResult → Run FieldFailure Node
  | .value _ ty => return Scope.context ty
  | .requery expression vars =>
    ((host.scope vars).compileSource (Scope.context pending.mutation.contextTy)
      expression).mapFault (⟨·, pending.path⟩)

/-- The type of the result is looked at where something is selected from it. -/
theorem resultQuery_eq :
    pending.resultQuery host claims result = (do
      let node ← pending.resultNode host result
      let shaped ← (host.scope result.vars).shape claims pending.path node pending.selections
      return .ofNode shaped (result.ty pending.mutation)) := by
  cases result with
  | value value ty => rfl
  | requery expression vars => rfl

/-- A mutation is denied after its routine has returned exactly where something is selected from
its result and the check of the type of the result refuses the caller. -/
theorem resultQuery_denied_iff
    (hnode : pending.resultNode host result session = .ok node between)
    (hrefuses : host.schema.Refuses claims name unmet) :
    (∃ final, pending.resultQuery host claims result session =
        .error (.fault ⟨.unauthorized name unmet, pending.path⟩) final) ↔
      pending.selections.isEmpty = false ∧ node.ty.objectName? = some name := by
  rw [resultQuery_eq, bind_of_ok hnode, ← Schema.authorizeTy_eq_unauthorized hrefuses]
  unfold Scope.shape
  cases hempty : pending.selections.isEmpty with
  | true =>
    refine ⟨?_, nofun⟩
    rintro ⟨final, heq⟩
    cases heq
  | false =>
    rw [if_neg Bool.false_ne_true, bind_assoc]
    refine (Scope.check_denied_iff ?_).trans ⟨fun h => ⟨rfl, h⟩, And.right⟩
    exact .bind (Scope.selectOn_elsewhere _ _ _) fun shaped => .pure _

/-- A mutation is rejected where a selection is that waits on its result. -/
theorem resultQuery_of_selects {first : Scope.Waiting} {halt : Halt FieldFailure}
    (hnode : pending.resultNode host result session = .ok node between)
    (hallowed : host.schema.authorizeTy claims node.ty = .ok ())
    (hselects : (host.scope result.vars).Selects .parameter claims pending.path node between
      pending.selections first)
    (hfails : first.compile (host.scope result.vars) .parameter claims = .error halt final) :
    pending.resultQuery host claims result session = .error halt final := by
  rw [resultQuery_eq, bind_of_ok hnode]
  unfold Scope.shape
  rw [hselects.isEmpty_eq_false, if_neg Bool.false_ne_true]
  exact bind_of_error ((check_of_ok hallowed).trans (hselects.fails hfails))

/-- What is prepared for a field has its response name as path. -/
theorem path_of_outcome {scope : Scope} {part : Part} (h : part.outcome scope = .mutation pending) :
    pending.path = [part.name] := by
  cases part with
  | failed name fault => cases h
  | field selection =>
    cases selection with
    | spread name position => cases h
    | field name alias? arguments selections position =>
      unfold Part.outcome Selection.outcome prepareMutation at h
      dsimp only at h
      cases hmutation : scope.schema.mutation? name with
      | none =>
        rw [hmutation] at h
        cases h
      | some mutation =>
        rw [hmutation] at h
        dsimp only at h
        cases hvalues : argumentMembers scope.vars arguments with
        | ok values =>
          rw [hvalues] at h
          cases h
          rfl
        | error fault =>
          rw [hvalues] at h
          cases h

end PendingMutation

/-- The failure of a field tells what it is of. -/
theorem Failure.ofField_inj {failure other : FieldFailure}
    (h : Failure.ofField failure = Failure.ofField other) : failure = other := by
  obtain ⟨fault, path⟩ := failure
  obtain ⟨fault', path'⟩ := other
  cases h
  rfl

namespace FieldRun

/-- A field is denied: it fails because the caller may not see the objects of a type. -/
def Denied (run : FieldRun) (name : String) (unmet : List (List String)) (path : List String) :
    Prop :=
  run.result = .error (.ofField ⟨.unauthorized name unmet, path⟩)

/-- A field that is denied has no data and an error that names the type. -/
theorem Denied.shown {run : FieldRun} {name : String} {unmet : List (List String)}
    {path : List String} (h : run.Denied name unmet path) :
    run.entry = (run.name, .null) ∧
      run.error? = some (errorEntry ("Not authorized to access '" ++ name ++ "'") path) := by
  unfold entry error?
  rw [h]
  exact ⟨rfl, rfl⟩

/-- The start of a field at the top of a query. -/
def topOf (host : Host) (selection : Selection) (before : Session) : Scope.Waiting :=
  ⟨[], Scope.context host.schema.contextTy, selection, before⟩

/-- The static type of what a field at the top of a document results in, and whether its type is
looked at. -/
inductive HasResult (host : Host) (vars : Entries Value) (services : Services) (claims : Claims)
    (part : Part) (before : Session) (run : FieldRun) : OperationKind → Bool → Ty → Prop
  | query {selection : Selection} {ty : Ty} (hpart : part = .field selection)
      (hgives : (topOf host selection before).Gives (host.scope vars) .parameter claims ty) :
      HasResult host vars services claims part before run .query true ty
  | mutation {pending : PendingMutation} {invocation : Invocation} {result : MutationResult}
      {invoked called : World} {node : Node} {session : Session}
      (houtcome : run.outcome = .mutation pending)
      (hinvocation : pending.mutation.invocation host.schema services claims run.before.store
        pending.arguments run.before = .ok invocation invoked)
      (hroutine : pending.mutation.routine invocation invoked = .ok result called)
      (hnode : pending.resultNode host result ⟨0, called.register⟩ = .ok node session) :
      HasResult host vars services claims part before run .mutation (!pending.selections.isEmpty)
        node.ty

/-- The path and the static type of what a field results in that is selected at any depth, when
everything before it has been compiled. -/
inductive HasResultBelow (host : Host) (vars : Entries Value) (services : Services)
    (claims : Claims) (part : Part) (before : Session) (run : FieldRun) :
    OperationKind → List String → Ty → Prop
  | query {selection : Selection} {target : Scope.Waiting} {ty : Ty}
      (hpart : part = .field selection)
      (hcomes : (host.scope vars).ComesTo .parameter claims (topOf host selection before) target)
      (hgives : target.Gives (host.scope vars) .parameter claims ty) :
      HasResultBelow host vars services claims part before run .query target.fieldPath ty
  | mutation {pending : PendingMutation} {invocation : Invocation} {result : MutationResult}
      {invoked called : World} {node : Node} {session : Session} {first target : Scope.Waiting}
      {ty : Ty}
      (houtcome : run.outcome = .mutation pending)
      (hinvocation : pending.mutation.invocation host.schema services claims run.before.store
        pending.arguments run.before = .ok invocation invoked)
      (hroutine : pending.mutation.routine invocation invoked = .ok result called)
      (hnode : pending.resultNode host result ⟨0, called.register⟩ = .ok node session)
      (hallowed : host.schema.authorizeTy claims node.ty = .ok ())
      (hselects : (host.scope result.vars).Selects .parameter claims pending.path node session
        pending.selections first)
      (hcomes : (host.scope result.vars).ComesTo .parameter claims first target)
      (hgives : target.Gives (host.scope result.vars) .parameter claims ty) :
      HasResultBelow host vars services claims part before run .mutation target.fieldPath ty

section

variable {host : Host} {vars : Entries Value} {services : Services} {claims : Claims}
  {context : Value} {part : Part} {before : Session} {run : FieldRun} {name : String}
  {unmet : List (List String)} {path : List String} {ty : Ty} {failure : FieldFailure}

/-- What becomes of a field of a query: its query, or its failure. -/
theorem outcome_query {selection : Selection} {outcome : Outcome}
    (hbecomes : (Part.field selection).Becomes host vars claims before .query outcome) :
    (∃ node final, outcome = .query (.ofNode node host.schema.contextTy) ∧
        (topOf host selection before).compile (host.scope vars) .parameter claims =
          .ok node final) ∨
      ∃ failure final, outcome = .failed failure ∧
        (topOf host selection before).compile (host.scope vars) .parameter claims =
          .error (.fault failure) final := by
  cases hbecomes with
  | query hcompile =>
    have htop := (compileTopField_eq selection before).symm.trans hcompile
    split at htop
    · exact .inl ⟨_, _, (EStateM.Result.ok.inj htop).1.symm, ‹_›⟩
    · exact .inr ⟨_, _, (EStateM.Result.ok.inj htop).1.symm, ‹_›⟩
    · cases htop

/-- A field of a query fails in its compilation, or when its query runs. -/
theorem result_query {selection : Selection}
    (hbecomes : (Part.field selection).Becomes host vars claims before .query run.outcome)
    (hrun : ((run.outcome.run host services claims context run.name).attempt : Execution Empty _)
      run.before = .ok run.result run.after) :
    run.result = .error (.ofField failure) ↔
      ∃ final, (topOf host selection before).compile (host.scope vars) .parameter claims =
        .error (.fault failure) final := by
  rcases outcome_query hbecomes with ⟨node, final, houtcome, hnode⟩ |
    ⟨found, final, houtcome, hfound⟩
  · rw [houtcome] at hrun
    rw [hnode]
    refine ⟨fun hresult => ?_, nofun⟩
    rw [hresult] at hrun
    dsimp only [Outcome.run, attempt] at hrun
    cases hvalue : (Query.ofNode node host.schema.contextTy).run services context with
    | ok value =>
      rw [hvalue] at hrun
      cases hrun
    | error fault =>
      rw [hvalue] at hrun
      cases hrun
  · rw [houtcome] at hrun
    have hresult : run.result = .error (.ofField found) := (EStateM.Result.ok.inj hrun).1.symm
    rw [hresult, hfound]
    constructor
    · intro heq
      rw [Failure.ofField_inj (Except.error.inj heq)]
      exact ⟨final, rfl⟩
    · rintro ⟨_, heq⟩
      cases heq
      rfl

/-- A mutation whose routine has returned is rejected where the query on its result is. -/
theorem result_mutation {pending : PendingMutation} {invocation : Invocation}
    {result : MutationResult} {invoked called : World}
    (houtcome : run.outcome = .mutation pending)
    (hinvocation : pending.mutation.invocation host.schema services claims run.before.store
      pending.arguments run.before = .ok invocation invoked)
    (hroutine : pending.mutation.routine invocation invoked = .ok result called)
    (hrun : ((run.outcome.run host services claims context run.name).attempt : Execution Empty _)
      run.before = .ok run.result run.after) :
    run.result = .error (.ofField failure) ↔
      ∃ final, pending.resultQuery host claims result ⟨0, called.register⟩ =
        .error (.fault failure) final := by
  rw [houtcome] at hrun
  change ((pending.run host services claims).attempt : Execution Empty _) run.before = _ at hrun
  unfold attempt at hrun
  rw [PendingMutation.run_called hinvocation hroutine] at hrun
  cases hquery : pending.resultQuery host claims result ⟨0, called.register⟩ with
  | error halt session =>
    rw [hquery] at hrun
    cases halt with
    | depth => cases hrun
    | fault found =>
      have hresult : run.result = .error (.ofField found) := (EStateM.Result.ok.inj hrun).1.symm
      rw [hresult]
      constructor
      · intro heq
        rw [Failure.ofField_inj (Except.error.inj heq)]
        exact ⟨session, rfl⟩
      · rintro ⟨_, heq⟩
        cases heq
        rfl
  | ok query session =>
    rw [hquery] at hrun
    refine ⟨fun hresult => ?_, nofun⟩
    rw [hresult] at hrun
    dsimp only at hrun
    cases hvalue : query.run services (result.context called.store) with
    | ok value =>
      rw [hvalue] at hrun
      cases hrun
    | error fault =>
      rw [hvalue] at hrun
      cases hrun

/-- The field of a document is denied for the type of its result exactly where this type is looked
at and the check finds the object type in it. -/
theorem HasResult.denied_iff {kind : OperationKind} {checked : Bool}
    (h : run.HasResult host vars services claims part before kind checked ty)
    (hname : part.name = run.name)
    (hbecomes : part.Becomes host vars claims before kind run.outcome)
    (hrun : ((run.outcome.run host services claims context run.name).attempt : Execution Empty _)
      run.before = .ok run.result run.after)
    (hrefuses : host.schema.Refuses claims name unmet) :
    run.Denied name unmet [run.name] ↔ checked = true ∧ ty.objectName? = some name := by
  unfold Denied
  cases h with
  | @query selection ty hpart hgives =>
    subst hpart
    have hpath : [run.name] = (topOf host selection before).fieldPath := by
      rw [← hname]
      cases hgives
      rfl
    rw [result_query hbecomes hrun, hpath, hgives.denied_iff hrefuses]
    simp
  | @mutation pending _ _ _ _ _ _ houtcome hinvocation hroutine hnode =>
    have hpath : pending.path = [part.name] := by
      generalize run.outcome = outcome at hbecomes houtcome
      cases hbecomes
      exact PendingMutation.path_of_outcome houtcome
    rw [hname] at hpath
    rw [result_mutation houtcome hinvocation hroutine hrun, ← hpath,
      PendingMutation.resultQuery_denied_iff hnode hrefuses]
    simp

/-- The field of a document is denied if the check finds an object type that the caller may not see
in what is selected below it. -/
theorem HasResultBelow.denied {kind : OperationKind}
    (h : run.HasResultBelow host vars services claims part before kind path ty)
    (hbecomes : part.Becomes host vars claims before kind run.outcome)
    (hrun : ((run.outcome.run host services claims context run.name).attempt : Execution Empty _)
      run.before = .ok run.result run.after)
    (hrefuses : host.schema.Refuses claims name unmet) (hobject : ty.objectName? = some name) :
    run.Denied name unmet path := by
  cases h with
  | query hpart hcomes hgives =>
    subst hpart
    obtain ⟨final, hfails⟩ := (hgives.denied_iff hrefuses).mpr hobject
    exact (result_query hbecomes hrun).mpr ⟨final, hcomes.fails hfails⟩
  | mutation houtcome hinvocation hroutine hnode hallowed hselects hcomes hgives =>
    obtain ⟨final, hfails⟩ := (hgives.denied_iff hrefuses).mpr hobject
    exact (result_mutation houtcome hinvocation hroutine hrun).mpr
      ⟨final, PendingMutation.resultQuery_of_selects hnode hallowed hselects (hcomes.fails hfails)⟩

end

end FieldRun

/-- What comes out of the check of the types of results, in every run of a document. Where the
static type of what a field results in holds objects, in lists of any depth, of a type that the
caller may not see, the field at the top of a document is denied for it exactly if the type is
looked at, which it is unless the field is a mutation from whose result nothing is selected, and if
the objects are not in lists of lists. What is selected below denies the field at the top in the
same cases. A field that is denied has no data and an error that names the type. -/
theorem Host.denies_results (host : Host) (services : Services) (source : String)
    (request : Request) {document : Document} {operation : Operation} {vars : Entries Value}
    {world final : World} {json : Json}
    (hread : Document.read source = .ok document)
    (hoperation : document.operation request.operation? = .ok operation)
    (hvars : host.schema.bindVariables operation.vars request.vars = .ok vars)
    (hrun : host.run services source request world = .ok json final) :
    ∃ outcomes register runs,
      host.Runs services request.claims (operation.kind.context world.store) outcomes
          ⟨world.store, register⟩ runs final ∧
        json = FieldRun.envelope runs ∧
        runs.map FieldRun.name = document.names operation.selections ∧
        ∀ run ∈ runs, ∃ part ∈ document.parts operation.selections, part.name = run.name ∧
          ∃ before, part.Becomes host vars request.claims before operation.kind run.outcome ∧
            ∀ name unmet, host.schema.Refuses request.claims name unmet →
              (∀ checked ty, run.HasResult host vars services request.claims part before
                  operation.kind checked ty → ty.innerObject? = some name →
                (run.Denied name unmet [run.name] ↔
                  checked = true ∧ ty.objectName? = some name)) ∧
              (∀ path ty, run.HasResultBelow host vars services request.claims part before
                  operation.kind path ty → ty.objectName? = some name →
                run.Denied name unmet path) ∧
              ∀ path, run.Denied name unmet path → run.entry = (run.name, .null) ∧
                run.error? =
                  some (errorEntry ("Not authorized to access '" ++ name ++ "'") path) := by
  obtain ⟨outcomes, register, runs, hruns, hjson, hnames, hparts⟩ :=
    run_eq_ok hread hoperation hvars hrun
  refine ⟨outcomes, register, runs, hruns, hjson, hnames, fun run hmem => ?_⟩
  obtain ⟨part, hpart, hname, before, hbecomes⟩ := hparts run hmem
  have hfield := (hruns.of_mem hmem).2
  refine ⟨part, hpart, hname, before, hbecomes, fun name unmet hrefuses => ⟨?_, ?_, ?_⟩⟩
  · intro checked ty hresult _
    exact hresult.denied_iff hname hbecomes hfield hrefuses
  · intro path ty hbelow hobject
    exact hbelow.denied hbecomes hfield hrefuses hobject
  · exact fun path hdenied => hdenied.shown

/-- A host with a person and a grid of persons, whom only some may see. -/
def gridHost : Host where
  schema := .ofParts "Query" [] [
    .ofFields "Query" none [.ofMember "me" (.object "Person"),
      .ofMember "grid" (.list (.list (.object "Person")))],
    .ofFields "Person" (some ⟨[["hr"]]⟩) [.ofMember "name" .string]] []
  methods := .standard
  depth := 1

/-- One person, alone and in the grid. -/
def gridWorld : World :=
  let ann : Value := .object "Person" [("name", .text "Ann")]
  ⟨.object "Query" [("me", ann), ("grid", .list [.list [ann]])], .empty⟩

/-- The person is denied, and shown in the grid. -/
def gridAnswer : String :=
  "\x7b\"data\":\x7b\"me\":null,\"grid\":[[\x7b\"name\":\"Ann\"\x7d]]\x7d," ++
    "\"errors\":[\x7b\"message\":\"Not authorized to access 'Person'\",\"path\":[\"me\"]\x7d]\x7d"

/-- People are refused to callers without claims. -/
theorem gridHost_refuses : gridHost.schema.Refuses .none "Person" [["hr"]] := by
  refine ⟨.ofFields "Person" (some ⟨[["hr"]]⟩) [.ofMember "name" .string], ⟨[["hr"]]⟩, rfl, rfl, ?_,
    rfl⟩
  rw [Schema.holds_iff_unmet]
  decide

/-- The person is denied to a caller without claims, and the grid is shown. -/
theorem Host.denies_results_grid :
    ∃ document operation json final, Document.read "\x7b me grid \x7d" = .ok document ∧
      document.operation none = .ok operation ∧
      gridHost.schema.bindVariables operation.vars [] = .ok [] ∧
      gridHost.run [] "\x7b me grid \x7d" .empty gridWorld = .ok json final ∧
      gridHost.schema.Refuses .none "Person" [["hr"]] ∧
      json.compact = gridAnswer ∧
      ∃ runs, json = FieldRun.envelope runs ∧ runs.map FieldRun.name = ["me", "grid"] ∧
        ∀ run ∈ runs, ∃ part ∈ document.parts operation.selections, part.name = run.name ∧
          ∃ before, ∀ checked ty, run.HasResult gridHost [] [] .none part before operation.kind
              checked ty → ty.innerObject? = some "Person" →
            (run.Denied "Person" [["hr"]] [run.name] ↔
              checked = true ∧ ty.objectName? = some "Person") := by
  obtain ⟨document, operation, hread, hoperation, -, hvars, hnames⟩ := exists_of_isQuery
    (show isQuery "\x7b me grid \x7d" (fun document operation =>
      document.names operation.selections = ["me", "grid"]) = true by decide +kernel)
  obtain ⟨json, final, hrun, hjson⟩ := exists_of_yields
    (show (gridHost.run [] "\x7b me grid \x7d" .empty).yields gridWorld (fun json =>
      json.compact = gridAnswer) = true by decide +kernel)
  obtain ⟨outcomes, register, runs, -, henvelope, hshown, hparts⟩ :=
    gridHost.denies_results [] "\x7b me grid \x7d" .empty hread hoperation (hvars _) hrun
  refine ⟨document, operation, json, final, hread, hoperation, hvars _, hrun, gridHost_refuses,
    of_decide_eq_true hjson, runs, henvelope, hshown.trans (of_decide_eq_true hnames), ?_⟩
  intro run hmem
  obtain ⟨part, hpart, hname, before, -, hdenied⟩ := hparts run hmem
  exact ⟨part, hpart, hname, before, (hdenied _ _ gridHost_refuses).1⟩

end TypedQuery
