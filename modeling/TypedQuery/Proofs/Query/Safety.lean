import TypedQuery.Proofs.Compile.Vetting
import TypedQuery.Proofs.Plan.Safety
import TypedQuery.Proofs.Query.Preservation

/-!
# Compiled queries raise no errors of types

What the compiler has checked, a run does not find wrong: a query that is compiled from an
expression, without powers and without nodes of dynamic types or of floats, gives a value or fails
because of its data. A `null` may stand below any type, and all operations but one pass it on. The
one that does not is a cut of a list: its count has to be an integer, and a run that meets a count
that is `null` is refused.
-/

namespace TypedQuery

open Halting

/-- A query that an expression compiles to, with its vetted and sound node. -/
theorem Query.exists_vetted_node {host : Host} {contextTy : Ty} {vars : Entries Value}
    {source : String} {query : Query} {session session' : Session}
    (h : (compile (host.scope vars) contextTy source) session = .ok query session')
    (hmethods : host.methods = .standard) (hplain : host.schema.WithoutArguments)
    (hservices : host.schema.WithoutServices) :
    ∃ node : Node, query = ofNode node contextTy ∧ node.Vetted ∧
      node.Sound (.ofSchema host.schema vars) (.only contextName contextTy) := by
  have hlibrary : host.methods.Sound (.ofSchema host.schema vars) :=
    hmethods ▸ MethodLibrary.sound_standard _
  have hhost : host.Sound (.ofSchema host.schema vars) vars :=
    Host.sound_ofSchema vars hlibrary hplain
      fun type name field service inputs run hfield hservice =>
        absurd hservice (hservices type name field service inputs run hfield)
  have hvets : (host.scope vars).methods.Vets := by
    change host.methods.Vets
    exact hmethods ▸ MethodLibrary.vets_standard
  have hcompile : Ensures (compile (host.scope vars) contextTy source) fun query =>
      ∃ node : Node, query = ofNode node contextTy ∧ node.Vetted ∧
        node.Sound (.ofSchema host.schema vars) (.only contextName contextTy) :=
    .bind ((Scope.compileSource_ensures hhost.scope (Scope.good_context contextTy)
      (hhost.reads source)).and (Scope.compileSource_vetted hservices hvets contextTy source))
      fun node ⟨hgood, hvetted⟩ => .pure ⟨node, rfl, hvetted, hgood.toSound⟩
  exact hcompile _ _ _ h

/-- The environment of a node supplies the context and the variables. -/
theorem Query.environmentOf_supplies {schema : Schema} {vars : Entries Value} {node : Node}
    {contextTy : Ty} {context : Value}
    (hnode : node.Sound (.ofSchema schema vars) (.only contextName contextTy))
    (hcontext : context.Conforms schema.members contextTy)
    (hvars : ∀ name value, Entries.find? vars name = some value →
      value.Conforms schema.members value.staticType) :
    (environmentOf node context).Supplies schema.members
      ((Assumptions.ofSchema schema vars).capturing
        (.only contextName contextTy) node.constants) := by
  intro name ty hty
  obtain ⟨value, hlookup⟩ := exists_lookup_environmentOf hty
  refine ⟨value, hlookup, ?_⟩
  rcases eq_of_lookup_environmentOf hnode hty hlookup with ⟨rfl, rfl⟩ | ⟨x, hx, rfl⟩
  · exact hcontext.agrees
  · exact (hvars x value hx).agrees

/-- Typed programs raise no errors of types. Where an expression without powers compiles with the
standard methods, on a schema of members and computed fields without arguments, to a plan none of
whose nodes is dynamic or of floats, every run on a context and variables that conform to their
types gives a value of the kind of its type, or fails because of its data, or comes to a cut of a
list whose count is `null`. -/
theorem Host.raises_no_type_error {host : Host} {contextTy : Ty} {vars : Entries Value}
    {source : String} {query : Query} {session session' : Session} {services : Services}
    {context : Value}
    (h : (Query.compile (host.scope vars) contextTy source) session = .ok query session')
    (hmethods : host.methods = .standard) (hplain : host.schema.WithoutArguments)
    (hservices : host.schema.WithoutServices)
    (hpower : Operator.power ∉ query.body.operators)
    (hdefinite : query.body.Every fun node => node.ty.Definite)
    (hcontext : context.Conforms host.schema.members contextTy)
    (hvars : ∀ name value, Entries.find? vars name = some value →
      value.Conforms host.schema.members value.staticType) :
    (∃ value, query.run services context = .ok value ∧
        value.Agrees host.schema.members query.body.ty) ∨
      (∃ fault, query.run services context = .error fault ∧ fault.isOfData = true) ∨
      query.run services context = .error (.type (.notCount Value.null.kind)) ∧
        ∃ environment, Query.bind services context query.parameters query.arguments [] =
            .ok environment ∧
          query.body.MeetsNullCount services environment := by
  obtain ⟨node, rfl, hvetted, hnode⟩ := Query.exists_vetted_node h hmethods hplain hservices
  have hnone : node.services = [] := hvetted.services
  have hbind : Query.bind services context (Query.ofNode node contextTy).parameters
      (Query.ofNode node contextTy).arguments [] = .ok (Query.environmentOf node context) := by
    rw [Query.bind_ofNode, hnone]
    rfl
  have hrun : (Query.ofNode node contextTy).run services context =
      node.plan.eval services (Query.environmentOf node context) := by
    refine Query.run_ofNode ?_
    rw [hnone]
    exact nofun
  have hends : Ends (node.plan.MeetsNullCount services (Query.environmentOf node context))
      (node.plan.eval services (Query.environmentOf node context))
      fun value => value.Agrees host.schema.members node.plan.ty :=
    hnode.typed.ends_eval (hvetted.plan.strict hdefinite hpower)
      (Query.environmentOf_supplies hnode hcontext hvars)
  rw [hrun]
  cases heval : node.plan.eval services (Query.environmentOf node context) with
  | ok value =>
    rw [heval] at hends
    exact .inl ⟨value, rfl, hends⟩
  | error fault =>
    rw [heval] at hends
    rcases hends with hdata | ⟨rfl, hmet⟩
    · exact .inr (.inl ⟨fault, rfl, hdata⟩)
    · exact .inr (.inr ⟨rfl, _, hbind, hmet⟩)

/-- The error of types with which a run ends, if it ends with one. -/
def typeFault? (outcome : Except RunFault Value) : Option TypeFault :=
  match outcome with
  | .error (.type fault) => some fault
  | _ => none

/-- A run with an error of types fails with it. -/
theorem eq_error_of_typeFault? {outcome : Except RunFault Value} {fault : TypeFault}
    (h : typeFault? outcome = some fault) : outcome = .error (.type fault) := by
  unfold typeFault? at h
  split at h <;> cases h
  rfl

/-- A host with people of whom a number is asked for. -/
def pagingHost : Host where
  schema := .ofParts "Query" [] [
    .ofFields "Query" none [.ofMember "people" (.list (.object "Person")),
      .ofMember "limit" (.int .i32)],
    .ofFields "Person" none [.ofMember "age" (.int .i32)]] []
  methods := .standard
  depth := 1

/-- One person, and the number that is asked for. -/
def pagingContext (limit : Value) : Value :=
  .object "Query" [("people", .list [.object "Person" [("age", .int 36)]]), ("limit", limit)]

/-- The fields of the host are the people, the limit and the age. -/
theorem pagingHost_field {type name : String} {field : FieldDefinition}
    (h : pagingHost.schema.field? type name = some field) :
    type = "Query" ∧ field = .ofMember "people" (.list (.object "Person")) ∨
      type = "Query" ∧ field = .ofMember "limit" (.int .i32) ∨
      type = "Person" ∧ field = .ofMember "age" (.int .i32) := by
  refine Schema.of_forall_fields (P := fun type _ field =>
    type = "Query" ∧ field = .ofMember "people" (.list (.object "Person")) ∨
      type = "Query" ∧ field = .ofMember "limit" (.int .i32) ∨
      type = "Person" ∧ field = .ofMember "age" (.int .i32)) ?_ h
  intro type htype field hfield
  have htypes : pagingHost.schema.types = [
      ("Query", .ofFields "Query" none [.ofMember "people" (.list (.object "Person")),
        .ofMember "limit" (.int .i32)]),
      ("Person", .ofFields "Person" none [.ofMember "age" (.int .i32)])] := rfl
  rw [htypes] at htype
  rcases List.mem_pair.mp htype with rfl | rfl
  · rcases List.mem_pair.mp hfield with rfl | rfl
    · exact .inl ⟨rfl, rfl⟩
    · exact .inr (.inl ⟨rfl, rfl⟩)
  · cases List.mem_singleton.mp hfield
    exact .inr (.inr ⟨rfl, rfl⟩)

/-- No field of the host has arguments. -/
theorem pagingHost_withoutArguments : pagingHost.schema.WithoutArguments := by
  intro type name field hfield
  rcases pagingHost_field hfield with ⟨-, rfl⟩ | ⟨-, rfl⟩ | ⟨-, rfl⟩ <;> rfl

/-- No field of the host is one of a service. -/
theorem pagingHost_withoutServices : pagingHost.schema.WithoutServices := by
  intro type name field service inputs run hfield
  rcases pagingHost_field hfield with ⟨-, rfl⟩ | ⟨-, rfl⟩ | ⟨-, rfl⟩ <;> exact nofun

/-- The context conforms to its type if the limit does. -/
theorem pagingContext_conforms {limit : Value}
    (h : limit.Conforms pagingHost.schema.members (.int .i32)) :
    (pagingContext limit).Conforms pagingHost.schema.members (.object "Query") := by
  have hperson : (Value.object "Person" [("age", .int 36)]).Conforms pagingHost.schema.members
      (.object "Person") := by
    refine .object rfl ?_
    rintro host ty value ⟨name, field, hfield, hresolver, rfl⟩ hvalue
    rcases pagingHost_field hfield with ⟨htype, -⟩ | ⟨htype, -⟩ | ⟨-, rfl⟩
    · exact absurd htype (by decide)
    · exact absurd htype (by decide)
    · cases List.mem_singleton.mp (Entries.mem_of_find? hvalue)
      exact .int rfl rfl
  refine .object rfl ?_
  rintro host ty value ⟨name, field, hfield, hresolver, rfl⟩ hvalue
  rcases pagingHost_field hfield with ⟨-, rfl⟩ | ⟨-, rfl⟩ | ⟨htype, -⟩
  · cases hresolver
    cases hvalue
    refine .list rfl fun item hitem => ?_
    cases List.mem_singleton.mp hitem
    exact hperson
  · cases hresolver
    cases hvalue
    exact h
  · exact absurd htype (by decide)

/-- The people that are asked for are given where the number is an integer. Where it is `null`, the
run comes to it and is refused. -/
theorem Host.raises_no_type_error_paging :
    ∃ query session, (Query.compile (pagingHost.scope []) (.object "Query") "people.take(limit)")
        default = .ok query session ∧
      (∃ value, query.run [] (pagingContext (.int 1)) = .ok value ∧
        value.Agrees pagingHost.schema.members query.body.ty) ∧
      ∃ environment, Query.bind [] (pagingContext .null) query.parameters query.arguments [] =
          .ok environment ∧
        query.body.MeetsNullCount [] environment := by
  obtain ⟨query, session, hquery, htest⟩ := exists_of_yields
    (show (Query.compile (pagingHost.scope []) (.object "Query") "people.take(limit)").yields
      default
      (fun query => Operator.power ∉ query.body.operators ∧
        (query.body.Every fun node => node.ty.Definite) ∧
        (query.run [] (pagingContext (.int 1))).isOk = true ∧
        typeFault? (query.run [] (pagingContext .null)) =
          some (.notCount Value.null.kind)) = true by
      decide +kernel)
  obtain ⟨hpower, hdefinite, hsome, hnull⟩ := of_decide_eq_true htest
  have hone : (pagingContext (.int 1)).Conforms pagingHost.schema.members (.object "Query") :=
    pagingContext_conforms (.int rfl (by decide))
  refine ⟨query, session, hquery, ?_, ?_⟩
  · rcases Host.raises_no_type_error hquery rfl pagingHost_withoutArguments
      pagingHost_withoutServices hpower hdefinite hone nofun with
      hvalue | ⟨fault, hfault, -⟩ | ⟨hfault, -⟩
    · exact hvalue
    · rw [hfault] at hsome
      cases hsome
    · rw [hfault] at hsome
      cases hsome
  · have hrun := eq_error_of_typeFault? hnull
    rcases Host.raises_no_type_error hquery rfl pagingHost_withoutArguments
      pagingHost_withoutServices hpower hdefinite (pagingContext_conforms .null) nofun with
      ⟨value, hvalue, -⟩ | ⟨fault, hfault, hdata⟩ | ⟨-, hmet⟩
    · cases hrun.symm.trans hvalue
    · cases hrun.symm.trans hfault
      cases hdata
    · exact hmet

/-- A count that is `null` is refused with an error of types, although no node is dynamic or of
floats, and the context conforms to its type. -/
theorem Host.refuses_null_count :
    ∃ query session, (Query.compile (pagingHost.scope []) (.object "Query") "people.take(limit)")
        default = .ok query session ∧
      pagingHost.methods = .standard ∧ pagingHost.schema.WithoutArguments ∧
      pagingHost.schema.WithoutServices ∧ Operator.power ∉ query.body.operators ∧
      (query.body.Every fun node => node.ty ≠ .any ∧ node.ty ≠ .float) ∧
      (pagingContext .null).Conforms pagingHost.schema.members (.object "Query") ∧
      query.run [] (pagingContext .null) = .error (.type (.notCount Value.null.kind)) := by
  obtain ⟨query, session, hquery, htest⟩ := exists_of_yields
    (show (Query.compile (pagingHost.scope []) (.object "Query") "people.take(limit)").yields
      default
      (fun query => Operator.power ∉ query.body.operators ∧
        (query.body.Every fun node => node.ty ≠ .any ∧ node.ty ≠ .float) ∧
        typeFault? (query.run [] (pagingContext .null)) =
          some (.notCount Value.null.kind)) = true by
      decide +kernel)
  obtain ⟨hpower, htypes, hnull⟩ := of_decide_eq_true htest
  exact ⟨query, session, hquery, rfl, pagingHost_withoutArguments, pagingHost_withoutServices,
    hpower, htypes, pagingContext_conforms .null, eq_error_of_typeFault? hnull⟩

end TypedQuery
