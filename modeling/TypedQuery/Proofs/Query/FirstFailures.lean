import TypedQuery.Proofs.Document.Expansion
import TypedQuery.Proofs.Document.Places
import TypedQuery.Proofs.Query.Running
import TypedQuery.Proofs.Query.Spreads

/-!
# Failures point at the first selection that fails

The fragments of a field are written out before the field is compiled. If they can be, the failure
of the field is that of the first selection that cannot be compiled by itself, a field before what
is inside of it, and its path leads there. If they cannot be, nothing is compiled, and the path is
the response name of the field.
-/

namespace TypedQuery

open Halting

namespace Document

variable {document : Document} {field : Selection} {written : List Selection} {fault : CompileFault}

/-- A field whose fragments can be written out is one part, the field that is written out. -/
theorem part_of_expand (hfield : field.isField = true)
    (hexpand : document.expand field = .ok written) :
    ∃ selection, written = [selection] ∧ document.part field = .field selection := by
  have hparts : document.parts [field] = [document.part field] := parts_field hfield
  unfold parts at hparts
  rw [List.flatMap_singleton, hexpand] at hparts
  obtain ⟨selection, hwritten, hpart⟩ := List.map_eq_singleton_iff.mp hparts
  exact ⟨selection, hwritten, hpart.symm⟩

/-- A field whose fragments cannot be written out is one part that fails. -/
theorem part_of_expand_fails (hfield : field.isField = true)
    (hexpand : document.expand field = .error fault) :
    document.part field = .failed field.responseName fault := by
  have hparts : document.parts [field] = [document.part field] := parts_field hfield
  unfold parts at hparts
  rw [List.flatMap_singleton, hexpand] at hparts
  exact (List.singleton_inj.mp hparts).symm

/-- A selection that cannot be written out reaches an undefined fragment or one that reaches
itself. -/
theorem expand_tells (hexpand : document.expand field = .error fault) :
    document.Tells [] [field] fault := by
  refine tells_of_expansion [] [field] fault ?_
  rw [← expandSelections_eq_expansion [] [field] _ unentered_nil_lt]
  unfold expand at hexpand
  unfold expandSelections
  rw [hexpand]
  rfl

/-- What is left at the top are fields. -/
theorem isField_of_mem_fieldsLeft {selections : List Selection}
    (hfield : field ∈ document.fieldsLeft selections) : field.isField = true := by
  obtain ⟨selection, _, hmem⟩ := List.mem_flatMap.mp hfield
  cases hfields : document.fieldsOf selection with
  | error fault =>
    rw [hfields] at hmem
    cases hmem
  | ok fields =>
    rw [hfields] at hmem
    exact fieldsOf_isField selection fields hfields field hmem

end Document

namespace Host

variable {host : Host} {document : Document} {operation : Operation} {request : Request}
  {vars : Entries Value} {start final : Session} {compiled : CompiledDocument}
  {before after : List Part} {part : Part}

/-- The outcome under a name is what the last part of the name becomes. -/
theorem becomes_of_find? (hoperation : document.operation request.operation? = .ok operation)
    (hvars : host.schema.bindVariables operation.vars request.vars = .ok vars)
    (hcompiled : host.compileOperation document request .parameter start = .ok compiled final)
    (hparts : document.parts operation.selections = before ++ part :: after)
    (hlast : ∀ later ∈ after, later.name ≠ part.name) {outcome : Outcome}
    (houtcome : Entries.find? compiled.fields part.name = some outcome) :
    ∃ session, part.Becomes host vars request.claims session operation.kind outcome := by
  obtain ⟨pairs, hpairs, rfl, hbecomes⟩ := compileOperation_eq_ok hoperation hvars hcompiled
  rw [hparts] at hpairs
  obtain ⟨earlier, more, rfl, _, hmore⟩ := List.map_eq_append_iff.mp hpairs
  obtain ⟨pair, later, rfl, rfl, rfl⟩ := List.map_eq_cons_iff.mp hmore
  have hlater : ∀ other ∈ later, other.1.name ≠ pair.1.name :=
    fun other hother => hlast other.1 (List.mem_map_of_mem hother)
  have hfind : Entries.find? (Entries.ofList ((earlier ++ pair :: later).map
      fun pair => (pair.1.name, pair.2))) pair.1.name = some pair.2 :=
    Entries.find?_ofList_map hlater
  cases hfind.symm.trans houtcome
  exact hbecomes pair (List.mem_append_right _ List.mem_cons_self)

/-- A field that is written out fails as the first of its places does that fails by itself. -/
theorem pointsAtFirst_of_compile (hmethods : host.methods.Nameless) {claims : Claims}
    {field : Selection} {failure : FieldFailure}
    (hcompile : (Part.field field).compile (host.scope vars) claims start =
      .ok (.failed failure) final) :
    (host.scope vars).PointsAtFirst claims
      ((host.scope vars).places claims [] host.schema.contextTy field) failure := by
  have hscope : (host.scope vars).methods.Nameless := hmethods
  have hcontext : Apart contextName start.parameters := apart_contextName start.parameters
  refine (Scope.compileSelection_eq_fault hscope hcontext).mp ?_
  have hrun : compileTopField (host.scope vars) .parameter claims .query field start =
      .ok (.failed failure) final := hcompile
  rw [compileTopField_eq] at hrun
  cases hfield : host.compileField claims vars field start with
  | ok node session => simp [hfield] at hrun
  | error halt session =>
    cases halt with
    | depth => simp [hfield] at hrun
    | fault fault =>
      rw [hfield] at hrun
      cases hrun
      exact ⟨_, hfield⟩

/-- What the failure of a field at the top of a query points at, if no later field or failing spread
has its response name. Where the fragments of the field can be written out, it is the first
selection that cannot be compiled by itself on the values of its parent, a field before what is
inside of it: the failure is that of this selection, and its path are the response names that lead
there. Where they cannot be, the failure names an undefined fragment that is reached, or one that
reaches itself, and its path is the response name of the field. -/
theorem failure_points_at_first (hmethods : host.methods.Nameless) {source : String}
    (hread : Document.read source = .ok document)
    (hoperation : document.operation request.operation? = .ok operation)
    (hkind : operation.kind = .query)
    (hvars : host.schema.bindVariables operation.vars request.vars = .ok vars)
    (hcompiled : host.compileDocument source request .parameter start = .ok compiled final)
    {field : Selection} (hfield : field ∈ document.fieldsLeft operation.selections)
    (hparts : document.parts operation.selections = before ++ document.part field :: after)
    (hlast : ∀ later ∈ after, later.name ≠ field.responseName) {failure : FieldFailure}
    (hfailed : Entries.find? compiled.fields field.responseName = some (.failed failure)) :
    match document.expand field with
    | .ok written =>
      (host.scope vars).PointsAtFirst request.claims
        ((host.scope vars).placesIn request.claims [] host.schema.contextTy written) failure
    | .error fault =>
      failure = ⟨fault, [field.responseName]⟩ ∧
        ∃ name, document.ReachedFrom [field] name ∧
          (fault = .unknownFragment name ∧ document.fragment? name = none ∨
            fault = .fragmentCycle name ∧ document.Reaches name name) := by
  have hoperation' : host.compileOperation document request .parameter start =
      .ok compiled final := by
    unfold compileDocument at hcompiled
    rwa [hread] at hcompiled
  rw [← Document.name_part document field] at hlast hfailed
  obtain ⟨session, hbecomes⟩ :=
    becomes_of_find? hoperation hvars hoperation' hparts hlast hfailed
  have hisField := Document.isField_of_mem_fieldsLeft hfield
  rw [hkind] at hbecomes
  cases hbecomes with
  | query hcompile =>
    cases hexpand : document.expand field with
    | ok written =>
      obtain ⟨selection, rfl, hpart⟩ := Document.part_of_expand hisField hexpand
      rw [hpart] at hcompile
      dsimp only
      unfold Scope.placesIn Scope.placesIn
      rw [List.append_nil]
      exact pointsAtFirst_of_compile hmethods hcompile
    | error fault =>
      rw [Document.part_of_expand_fails hisField hexpand] at hcompile
      cases hcompile
      obtain ⟨name, hreached, htells⟩ := Document.expand_tells hexpand
      exact ⟨rfl, name, hreached,
        htells.imp_right (And.imp_right (Or.resolve_left · List.not_mem_nil))⟩

end Host

/-- A host of people with managers. -/
def managerHost : Host where
  schema := .ofParts "Query" [] [
    .ofFields "Query" none [.ofMember "people" (.list (.object "Person"))],
    .ofFields "Person" none [.ofMember "name" .string, .ofMember "manager" (.object "Person")]] []
  methods := .standard
  depth := 1

/-- Two unknown fields, of which the first is the deeper one. -/
def managerSource : String :=
  "\x7b people \x7b name boss: manager \x7b shoeSize \x7d nope \x7d \x7d"

/-- An unknown field before an unknown fragment. -/
def missingSource : String :=
  "\x7b people \x7b nope ...missing \x7d \x7d"

/-- An operation selects one field, the people, which passes a test. -/
def Document.selectsPeople (test : Document → Selection → Bool) (document : Document)
    (operation : Operation) : Bool :=
  match operation.selections with
  | [field] => field.isField && field.responseName = "people" && test document field
  | _ => false

/-- An operation that selects people has one field, which answers as `people` and passes the test.
-/
theorem Document.exists_of_selectsPeople {test : Document → Selection → Bool}
    {document : Document} {operation : Operation}
    (h : document.selectsPeople test operation = true) :
    ∃ field, operation.selections = [field] ∧ field.isField = true ∧
      field.responseName = "people" ∧ test document field = true := by
  unfold selectsPeople at h
  split at h
  · rename_i field hselections
    rw [Bool.and_eq_true, Bool.and_eq_true, decide_eq_true_iff] at h
    obtain ⟨⟨hfield, hname⟩, htest⟩ := h
    exact ⟨field, hselections, hfield, hname, htest⟩
  · cases h

/-- The people of a compiled document are a failure that passes a test. -/
def CompiledDocument.peopleFail (test : FieldFailure → Bool) (compiled : CompiledDocument) : Bool :=
  match Entries.find? compiled.fields "people" with
  | some (.failed failure) => test failure
  | _ => false

/-- Where `people` fails, there is a failure under its name that passes the test. -/
theorem CompiledDocument.exists_of_peopleFail {test : FieldFailure → Bool}
    {compiled : CompiledDocument} (h : compiled.peopleFail test = true) :
    ∃ failure, Entries.find? compiled.fields "people" = some (.failed failure) ∧
      test failure = true := by
  unfold peopleFail at h
  split at h
  · exact ⟨_, ‹_›, h⟩
  · cases h

/-- The shoe size of the managers is what is reported. -/
theorem Host.failure_points_at_first_managers :
    ∃ document operation field written compiled final failure,
      Document.read managerSource = .ok document ∧ document.operation none = .ok operation ∧
      operation.kind = .query ∧
      managerHost.compileDocument managerSource .empty .parameter ⟨0, .empty⟩ = .ok compiled final ∧
      operation.selections = [field] ∧ document.expand field = .ok written ∧
      Entries.find? compiled.fields field.responseName = some (.failed failure) ∧
      failure.path = ["people", "boss", "shoeSize"] ∧
      (managerHost.scope []).PointsAtFirst .none
        ((managerHost.scope []).placesIn .none [] managerHost.schema.contextTy written)
        failure := by
  obtain ⟨document, operation, hread, hoperation, hkind, hvars, htest⟩ :=
    exists_of_isQuery (show isQuery managerSource (Document.selectsPeople fun document field =>
      (document.expand field).toOption.isSome) = true by decide +kernel)
  obtain ⟨field, hselections, hfield, hname, hexpands⟩ := Document.exists_of_selectsPeople htest
  obtain ⟨compiled, final, hcompiled, hfails⟩ := Halting.exists_of_yields
    (show (managerHost.compileDocument managerSource .empty).yields ⟨0, .empty⟩
      (CompiledDocument.peopleFail fun failure => failure.path = ["people", "boss", "shoeSize"]) =
        true by decide +kernel)
  obtain ⟨failure, hfailed, hpath⟩ := CompiledDocument.exists_of_peopleFail hfails
  rw [← hname] at hfailed
  have hleft : field ∈ document.fieldsLeft operation.selections := by
    rw [hselections, Document.fieldsLeft_cons, Document.fieldsOf, if_pos hfield]
    exact List.mem_append_left _ (List.mem_singleton.mpr rfl)
  have hparts : document.parts operation.selections = [] ++ document.part field :: [] := by
    rw [hselections]
    exact Document.parts_field hfield
  have hpoints := failure_points_at_first MethodLibrary.nameless_standard hread hoperation hkind
    (hvars managerHost.schema) hcompiled hleft hparts (List.forall_mem_nil _) hfailed
  cases hexpand : document.expand field with
  | error fault => simp [hexpand, Except.toOption] at hexpands
  | ok written =>
    rw [hexpand] at hpoints
    exact ⟨document, operation, field, written, compiled, final, failure, hread, hoperation, hkind,
      hcompiled, hselections, hexpand, hfailed, of_decide_eq_true hpath, hpoints⟩

/-- The first place that fails in a field is that of an unknown field of a person. -/
def Scope.unknownFirst (scope : Scope) (name : String) (path : List String) (field : Selection) :
    Bool :=
  match (scope.placesIn .none [] scope.schema.contextTy [field]).findSome?
    (scope.haltAt? .none) with
  | some (.fault ⟨.unknownField unknown (.type (.object "Person")), found⟩) =>
    unknown = name && found = path
  | _ => false

/-- Where the first place that fails is that of an unknown field, its failure points at it. -/
theorem Scope.pointsAtFirst_of_unknownFirst {scope : Scope} {name : String} {path : List String}
    {field : Selection} (h : scope.unknownFirst name path field = true) :
    scope.PointsAtFirst .none (scope.placesIn .none [] scope.schema.contextTy [field])
      ⟨.unknownField name (.type (.object "Person")), path⟩ := by
  rw [← findSome?_haltAt?_eq_fault]
  unfold unknownFirst at h
  split at h
  · rename_i hhalt
    rw [Bool.and_eq_true, decide_eq_true_iff, decide_eq_true_iff] at h
    obtain ⟨rfl, rfl⟩ := h
    exact hhalt
  · cases h

/-- Because of the unknown fragment, the unknown field before it is not reported. -/
theorem Host.failure_points_elsewhere :
    ∃ document operation field compiled final,
      Document.read missingSource = .ok document ∧ document.operation none = .ok operation ∧
      operation.kind = .query ∧
      managerHost.compileDocument missingSource .empty .parameter ⟨0, .empty⟩ =
        .ok compiled final ∧
      operation.selections = [field] ∧
      Entries.find? compiled.fields field.responseName =
        some (.failed ⟨.unknownFragment "missing", ["people"]⟩) ∧
      (managerHost.scope []).PointsAtFirst .none
        ((managerHost.scope []).placesIn .none [] managerHost.schema.contextTy [field])
        ⟨.unknownField "nope" (.type (.object "Person")), ["people", "nope"]⟩ ∧
      ¬(managerHost.scope []).PointsAtFirst .none
        ((managerHost.scope []).placesIn .none [] managerHost.schema.contextTy [field])
        ⟨.unknownFragment "missing", ["people"]⟩ := by
  obtain ⟨document, operation, hread, hoperation, hkind, -, htest⟩ :=
    exists_of_isQuery (show isQuery missingSource (Document.selectsPeople fun _ =>
      (managerHost.scope []).unknownFirst "nope" ["people", "nope"]) = true by decide +kernel)
  obtain ⟨field, hselections, -, hname, hfirst⟩ := Document.exists_of_selectsPeople htest
  obtain ⟨compiled, final, hcompiled, hfails⟩ := Halting.exists_of_yields
    (show (managerHost.compileDocument missingSource .empty).yields ⟨0, .empty⟩
      (CompiledDocument.peopleFail fun failure => match failure with
        | ⟨.unknownFragment fragment, path⟩ => fragment = "missing" && path = ["people"]
        | _ => false) = true by decide +kernel)
  obtain ⟨failure, hfailed, hfailure⟩ := CompiledDocument.exists_of_peopleFail hfails
  have hspread : failure = ⟨.unknownFragment "missing", ["people"]⟩ := by
    split at hfailure
    · rw [Bool.and_eq_true, decide_eq_true_iff, decide_eq_true_iff] at hfailure
      rw [hfailure.1, hfailure.2]
    · cases hfailure
  have hpoints := Scope.pointsAtFirst_of_unknownFirst hfirst
  rw [← hname, hspread] at hfailed
  refine ⟨document, operation, field, compiled, final, hread, hoperation, hkind, hcompiled,
    hselections, hfailed, hpoints, fun hother => ?_⟩
  cases hpoints.unique hother

end TypedQuery
