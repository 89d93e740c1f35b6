import TypedQuery.Proofs.Plan.Preservation
import TypedQuery.Proofs.Query.Binding

/-!
# Compiled queries give values of their types

A query that compiles with the standard methods gives only values that conform to the static
type of its plan, from contexts and variables that conform to theirs and from services that
keep their word. Sources see no other variables than those of the query, because no field
takes arguments.
-/

namespace TypedQuery

/-- What is known of a host whose fields take no arguments: the members that its fields read, the
results that its services promise, and the values of the variables. -/
def Assumptions.ofSchema (schema : Schema) (vars : Entries Value) : Assumptions where
  members := schema.members
  honest := HostFunction.Honest schema.members
  known name value := Entries.find? vars name = some value
  readable _ := True

/-- No field of a schema takes arguments. -/
def Schema.WithoutArguments (schema : Schema) : Prop :=
  ∀ type name field, schema.field? type name = some field → field.arguments = []

/-- The services of a schema give values of the types of their fields. -/
def Schema.HonestServices (schema : Schema) : Prop :=
  ∀ type name field service inputs run, schema.field? type name = some field →
    field.resolver = .service service inputs run → ∀ value arguments,
      Returns (run value arguments) fun result => result.Belongs schema.members field.ty

/-- Nothing is bound where no arguments are declared. -/
theorem Schema.eq_nil_of_bindArguments {schema : Schema} {target : String}
    {supplied : List (String × Value)} {bound : Entries Value}
    (h : schema.bindArguments target [] supplied = .ok bound) : bound = [] := by
  unfold bindArguments at h
  split at h
  · cases h
  · cases h
    rfl

/-- The fields of a schema are admitted by what is assumed of it. -/
theorem Schema.admitted_ofSchema {schema : Schema} {vars : Entries Value} {type name : String}
    {field : FieldDefinition} (hservices : schema.HonestServices)
    (hfield : schema.field? type name = some field) :
    field.Admitted (.ofSchema schema vars) type where
  member host hresolver := ⟨name, field, hfield, hresolver, rfl⟩
  service service inputs run hresolver := by
    intro value? arguments
    cases value? with
    | none => exact .error _
    | some value =>
      exact hservices type name field service inputs run hfield hresolver value arguments
  sources _ _ _ _ _ _ := trivial

/-- A host whose fields take no arguments is sound for what is known of it. -/
theorem Host.sound_ofSchema {host : Host} (vars : Entries Value)
    (hmethods : host.methods.Sound (.ofSchema host.schema vars))
    (hplain : host.schema.WithoutArguments) (hservices : host.schema.HonestServices) :
    host.Sound (.ofSchema host.schema vars) vars := by
  have hbound : ∀ type name field supplied bound, host.schema.field? type name = some field →
      host.schema.bindArguments name field.arguments supplied = .ok bound →
      ∀ entry ∈ bound, Entries.find? vars entry.1 = some entry.2 := by
    intro type name field supplied bound hfield hbind entry hentry
    rw [hplain type name field hfield] at hbind
    rw [Schema.eq_nil_of_bindArguments hbind] at hentry
    cases hentry
  exact {
    scope := {
      schema := ⟨fun _ _ _ hfield _ => Schema.admitted_ofSchema hservices hfield,
        fun type name field bound hfield _ => hbound type name field [] bound hfield⟩
      methods := hmethods
      vars := fun _ _ h => h }
    grants := fun _ => ⟨fun _ _ _ hfield _ => Schema.admitted_ofSchema hservices hfield, hbound⟩
    reads := fun _ _ _ _ _ => trivial }

/-- Variables differ in the names of their parameters. -/
theorem constantName_injective {x y : String} (h : constantName x = constantName y) : x = y := by
  have htoList : (constantName x).toList = (constantName y).toList := by rw [h]
  simp only [constantName, String.toList_append, List.append_cancel_left_eq] at htoList
  exact String.toList_injective htoList

/-- What a parameter of a running query stands for at a type: the context, or a variable at the
type of its value. -/
theorem Query.eq_of_lookup_environmentOf {schema : Schema} {vars : Entries Value} {node : Node}
    {contextTy ty : Ty} {context value : Value} {name : String}
    (hnode : node.Sound (.ofSchema schema vars) (.only contextName contextTy))
    (hty : (Assumptions.ofSchema schema vars).capturing (.only contextName contextTy)
      node.constants name ty) (hlookup : (environmentOf node context).lookup name = some value) :
    value = context ∧ ty = contextTy ∨
      ∃ x, Entries.find? vars x = some value ∧ ty = value.staticType := by
  rcases mem_of_lookup_environmentOf hlookup with ⟨rfl, rfl⟩ | ⟨entry, hentry, rfl, rfl⟩
  · rcases hty with ⟨_, rfl⟩ | ⟨x, _, hname, _⟩
    · exact .inl ⟨rfl, rfl⟩
    · exact absurd hname (contextName_ne_constantName x)
  · rcases hty with ⟨hname, _⟩ | ⟨x, known, hname, _, hknown, rfl⟩
    · exact absurd hname.symm (contextName_ne_constantName entry.1)
    · have hfound : Entries.find? vars entry.1 = some entry.2 := hnode.known entry hentry
      rw [constantName_injective hname] at hfound
      cases hfound.symm.trans hknown
      exact .inr ⟨x, hknown, rfl⟩

/-- The environment of a node keeps the types of the context and of the variables. -/
theorem Query.environmentOf_meets {schema : Schema} {vars : Entries Value} {node : Node}
    {contextTy : Ty} {context : Value}
    (hnode : node.Sound (.ofSchema schema vars) (.only contextName contextTy))
    (hcontext : context.Belongs schema.members contextTy)
    (hvars : ∀ name value, Entries.find? vars name = some value →
      value.Belongs schema.members value.staticType) :
    (environmentOf node context).Meets schema.members
      ((Assumptions.ofSchema schema vars).capturing
        (.only contextName contextTy) node.constants) := by
  intro name ty value hty hlookup
  rcases eq_of_lookup_environmentOf hnode hty hlookup with ⟨rfl, rfl⟩ | ⟨x, hx, rfl⟩
  · exact hcontext
  · exact hvars x value hx

/-- Types are preserved: where a query without powers, compiled with the standard methods, gives
a value, the value conforms to the type of the compiled plan. The fields of the schema take no
arguments, the context and the variables conform to their types, every list is short enough to
be counted, and services give values of the types of their fields. -/
theorem Host.conforms_of_compiles {host : Host} {contextTy : Ty} {vars : Entries Value}
    {query : Query} {services : Services} {context value : Value}
    (h : host.Compiles contextTy vars query) (hmethods : host.methods = .standard)
    (hplain : host.schema.WithoutArguments) (hservices : host.schema.HonestServices)
    (hpower : Operator.power ∉ query.body.operators)
    (hcontext : context.Belongs host.schema.members contextTy)
    (hvars : ∀ name value, Entries.find? vars name = some value →
      value.Belongs host.schema.members value.staticType)
    (hrun : query.run services context = .ok value) :
    value.Conforms host.schema.members query.body.ty := by
  have hlibrary : host.methods.Sound (.ofSchema host.schema vars) :=
    hmethods ▸ MethodLibrary.sound_standard _
  obtain ⟨node, hnode, rfl⟩ := h.sound (Host.sound_ofSchema vars hlibrary hplain hservices)
  unfold Query.run at hrun
  rw [Query.bind_ofNode] at hrun
  split at hrun
  · cases hrun
  · exact (hnode.typed.returns_eval (fun _ _ h => h) hpower
      (Query.environmentOf_meets hnode hcontext hvars) value hrun).1

/-- A host with a member that counts. -/
def countingHost : Host where
  schema := .ofParts "Query" [] [.ofFields "Query" none [.ofMember "count" (.int .i32)]] []
  methods := .standard
  depth := 1

/-- The step after a count of three is an integer of 32 bits. -/
theorem Host.conforms_of_compiles_counting :
    ∃ query value, countingHost.Compiles (.object "Query") [("step", .int 1)] query ∧
      query.body.ty = .int .i32 ∧
      query.run [] (.object "Query" [("Count", .int 3)]) = .ok value ∧
      value.Conforms countingHost.schema.members query.body.ty := by
  -- the schema has one field
  have hfield : ∀ {type name field}, countingHost.schema.field? type name = some field →
      field = .ofMember "count" (.int .i32) := by
    refine Schema.of_forall_fields (P := fun _ _ field => field = .ofMember "count" (.int .i32)) ?_
    intro type htype field hfield
    have htypes : countingHost.schema.types =
        [("Query", .ofFields "Query" none [.ofMember "count" (.int .i32)])] := rfl
    rw [htypes] at htype
    cases List.mem_singleton.mp htype
    exact congrArg Prod.snd (List.mem_singleton.mp hfield)
  obtain ⟨query, session, hrun, htest⟩ := Halting.exists_of_yields (show
    (Query.compile (countingHost.scope [("step", .int 1)]) (.object "Query") "count + $step").yields
      ⟨0, .empty⟩ (fun query => query.body.ty = .int .i32 ∧ Operator.power ∉ query.body.operators ∧
        (query.run [] (.object "Query" [("Count", .int 3)])).isOk = true) = true by
        decide +kernel)
  obtain ⟨hty, hpower, hresult⟩ : query.body.ty = .int .i32 ∧
      Operator.power ∉ query.body.operators ∧
      (query.run [] (.object "Query" [("Count", .int 3)])).isOk = true := by
    simpa using htest
  have hcompiles : countingHost.Compiles (.object "Query") [("step", .int 1)] query :=
    .expression hrun
  cases hvalue : query.run [] (.object "Query" [("Count", .int 3)]) with
  | error fault =>
    rw [hvalue] at hresult
    cases hresult
  | ok value =>
    refine ⟨query, value, hcompiles, hty, hvalue,
      Host.conforms_of_compiles hcompiles rfl ?_ ?_ hpower ?_ ?_ hvalue⟩
    · intro type name field h
      rw [hfield h]
      rfl
    · intro type name field service inputs run h hresolver
      rw [hfield h] at hresolver
      cases hresolver
    · refine ⟨.object rfl ?_, .object ?_⟩
      · rintro host ty count ⟨name, field, h, hresolver, rfl⟩ hcount
        rw [hfield h]
        obtain ⟨rfl, rfl⟩ : host = "Count" ∧ count = .int 3 := by
          simpa using Entries.mem_of_find? hcount
        exact .int rfl rfl
      · intro entry hentry
        rw [List.mem_singleton.mp hentry]
        exact .scalar rfl
    · intro name step hstep
      obtain ⟨rfl, rfl⟩ : name = "step" ∧ step = .int 1 := by
        simpa using Entries.mem_of_find? hstep
      exact ⟨.int rfl rfl, .scalar rfl⟩

end TypedQuery
