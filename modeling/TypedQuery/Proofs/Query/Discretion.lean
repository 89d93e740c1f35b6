import TypedQuery.Document.Execution
import TypedQuery.Proofs.Plan.Discretion
import TypedQuery.Proofs.Query.Binding

/-!
# Protected fields

A caller who does not meet the requirement of a field learns nothing of the member that the field
reads, if the sequence arguments of the document do not mention the field, the compiled queries are
discreet, and their results leave no object with that member to be shown. Stores that differ in
nothing else then give the same envelope.
-/

namespace TypedQuery

open Halting

/-- A field of a type is protected from a caller, who does not meet its requirement. No other field
of the type reads its member, and no source mentions its name. -/
structure Schema.Protects (schema : Schema) (claims : Claims) (type name member : String) :
    Prop where
  field : ∃ field requirement, schema.field? type name = some field ∧
    field.resolver = .member member ∧ field.requirement? = some requirement ∧
    requirement.unmet claims ≠ []
  only : ∀ other field, schema.field? type other = some field → field.resolver = .member member →
    other = name
  sources : ∀ owner other field, schema.field? owner other = some field →
    ∀ source ∈ field.sources, ∀ expr, Expr.read source = .ok expr → name ∉ expr.names

/-- The members that the fields of a schema read, with one member hidden. -/
def Schema.veil (schema : Schema) (type member : String) : Veil :=
  ⟨schema.members, type, member⟩

/-- What is known of a host behind a veil: its visible members, and the names of all fields but
one. -/
def Assumptions.behind (veil : Veil) (name : String) : Assumptions where
  members := veil.visible
  honest _ _ := True
  known _ _ := True
  readable other := other ≠ name

/-- The query of an outcome, where there is one, is discreet and gives nothing from which a hidden
member can be reached. -/
def Outcome.Discreet (veil : Veil) (outcome : Outcome) : Prop :=
  ∀ query, outcome = .query query → query.body.Discreet veil ∧ veil.Clear query.body.ty

variable {host : Host} {claims : Claims} {type name member : String} {veil : Veil}
variable {services : Services} {context other : Value}

/-- A protected field is refused. -/
theorem Schema.Protects.refused {schema : Schema} (h : schema.Protects claims type name member)
    {field : FieldDefinition} (hfield : schema.field? type name = some field) (target : String) :
    Schema.authorize target field.requirement? claims ≠ .ok () := by
  obtain ⟨found, requirement, hfound, _, hrequirement, hunmet⟩ := h.field
  cases hfield.symm.trans hfound
  unfold authorize
  rw [hrequirement]
  dsimp only
  rw [if_neg (by simpa using hunmet)]
  exact nofun

/-- A field that does not read the hidden member is admitted behind the veil. -/
theorem Schema.Protects.admitted {schema : Schema} (h : schema.Protects claims type name member)
    {owner other : String} {field : FieldDefinition}
    (hfield : schema.field? owner other = some field)
    (hother : owner = type → other ≠ name) :
    field.Admitted (.behind (schema.veil type member) name) owner where
  member reads hresolver := by
    refine ⟨⟨other, field, hfield, hresolver, rfl⟩, ?_⟩
    rintro ⟨rfl, rfl⟩
    exact hother rfl (h.only other field hfield hresolver)
  service _ _ _ _ := trivial
  sources source hsource expr hread mentioned hmentioned := by
    rintro rfl
    exact h.sources owner other field hfield source hsource expr hread hmentioned

/-- Behind the veil of a protected field, a host is sound for sources that do not mention it. -/
theorem Schema.Protects.scope_sound (h : host.schema.Protects claims type name member)
    (hmethods : host.methods = .standard) (vars : Entries Value) :
    (host.scope vars).Sound (.behind (host.schema.veil type member) name) where
  schema := ⟨fun _ _ _ hfield hreadable => h.admitted hfield fun _ => hreadable,
    fun _ _ _ _ _ _ _ _ _ => trivial⟩
  methods := by
    change host.methods.Sound _
    rw [hmethods]
    exact MethodLibrary.sound_standard _
  vars _ _ _ := trivial

/-- What may be read behind a veil is granted to a caller from whom the hidden field is protected.
-/
theorem Schema.Protects.grants {schema : Schema} (h : schema.Protects claims type name member) :
    schema.Grants (.behind (schema.veil type member) name) claims where
  admitted owner other field hfield hauthorized := by
    refine h.admitted hfield ?_
    rintro rfl rfl
    exact h.refused hfield _ hauthorized
  bound _ _ _ _ _ _ _ _ _ := trivial

namespace Query

/-- Contexts behind a veil make environments behind the veil. -/
theorem veiled_environmentOf {A : Assumptions} {node : Node} {contextTy : Ty}
    (hcontext : veil.Hides contextTy context other) :
    (environmentOf node context).Veiled veil
      (A.capturing (.only contextName contextTy) node.constants) (environmentOf node other) := by
  have hself : ∀ (value? : Option Value) (ty : Ty), Option.Rel (veil.Hides ty) value? value? := by
    intro value? ty
    cases value? with
    | none => exact .none
    | some value => exact .some .refl
  intro free ty hty
  unfold environmentOf
  rw [List.lookup_append, List.lookup_append]
  cases hlookup : List.lookup free
      (node.constants.map fun entry => (constantName entry.1, entry.2)).reverse with
  | some value => exact hself (some value) ty
  | none =>
    rw [Option.none_or, Option.none_or]
    by_cases hname : free = contextName
    · subst hname
      rw [List.lookup_cons_self, List.lookup_cons_self]
      rcases hty with ⟨_, rfl⟩ | ⟨x, _, hx, _⟩
      · exact .some hcontext
      · exact absurd hx (contextName_ne_constantName x)
    · rw [List.lookup_cons, List.lookup_cons, beq_false_of_ne hname]
      exact hself none ty

/-- A discreet query with a clear result gives the same in contexts behind the veil. -/
theorem run_eq_of_discreet {A : Assumptions} {query : Query} {contextTy : Ty}
    (hquery : query.Sound A contextTy) (hmembers : A.members = veil.visible)
    (hdiscreet : query.body.Discreet veil) (hclear : veil.Clear query.body.ty)
    (hcontext : veil.Hides contextTy context other) (services : Services) :
    query.run services context = query.run services other := by
  obtain ⟨node, hnode, rfl⟩ := hquery
  unfold run
  rw [bind_ofNode, bind_ofNode]
  split
  · rfl
  · exact Veil.eq_of_clear (hnode.typed.parallel_eval hmembers hdiscreet
      (veiled_environmentOf hcontext)) hclear

end Query

/-- A query operation prepares no mutation. -/
theorem compileTopField_query {scope : Scope} {claims : Claims} (selection : Selection) :
    Ensures (compileTopField scope .parameter claims .query selection) fun outcome =>
      ∀ pending, outcome ≠ .mutation pending := by
  unfold compileTopField
  refine .bind (p := fun _ => True) (fun _ _ _ _ => trivial) fun outcome _ => ?_
  cases outcome with
  | ok node => exact .pure nofun
  | error failure => exact .pure nofun

/-- What an execution answers in a world. -/
def Execution.answer? (run : Execution Empty Json) (world : World) : Option Json :=
  match run world with
  | .ok json _ => some json
  | .error _ _ => none

/-- An outcome that is no mutation leaves the world as it is. -/
theorem Outcome.exists_attempt {outcome : Outcome} (host : Host) (claims : Claims)
    (hquery : ∀ pending, outcome ≠ .mutation pending)
    (hrun : ∀ query, outcome = .query query →
      query.run services context = query.run services other) (label : String) :
    ∃ result : Except Failure Json, ∀ world,
      ((outcome.run host services claims context label).attempt : Execution Empty _) world =
          .ok result world ∧
        ((outcome.run host services claims other label).attempt : Execution Empty _) world =
          .ok result world := by
  cases outcome with
  | mutation pending => exact absurd rfl (hquery pending)
  | failed failure => exact ⟨.error (.ofField failure), fun _ => ⟨rfl, rfl⟩⟩
  | query compiled =>
    unfold Outcome.run
    dsimp only
    rw [hrun compiled rfl]
    cases compiled.run services other with
    | ok value => exact ⟨.ok (value.toJson (some host.schema)), fun _ => ⟨rfl, rfl⟩⟩
    | error fault => exact ⟨.error ⟨.run fault, [label]⟩, fun _ => ⟨rfl, rfl⟩⟩

/-- Puts the result of an outcome before the results of the others. -/
def listResult (label : String) (register : Register) (results : List (String × Json) × List Json) :
    Except Failure Json → List (String × Json) × List Json
  | .ok json => ((label, json) :: results.1, results.2)
  | .error failure => ((label, .null) :: results.1,
      errorEntry (failure.cause.message register) failure.path :: results.2)

/-- An outcome that leaves the world gives its result before those of the others. -/
theorem runOutcomes_cons {outcome : Outcome} {rest : List (String × Outcome)} {label : String}
    {world : World} {result : Except Failure Json} {results : List (String × Json) × List Json}
    (hresult : ((outcome.run host services claims context label).attempt :
      Execution Empty _) world =
      .ok result world)
    (hrest : runOutcomes host services claims context rest world = .ok results world) :
    runOutcomes host services claims context ((label, outcome) :: rest) world =
      .ok (listResult label world.register results result) world := by
  have hworld : (get : Execution Empty World) world = .ok world world := rfl
  unfold runOutcomes
  rw [bind_of_ok hresult, bind_of_ok hworld]
  dsimp only
  rw [bind_of_ok hrest]
  cases result with
  | ok json => rfl
  | error failure => rfl

/-- Queries that give the same in two contexts give the same results and errors. -/
theorem exists_runOutcomes {fields : List (String × Outcome)} (host : Host) (claims : Claims)
    (hquery : ∀ entry ∈ fields, ∀ pending, entry.2 ≠ .mutation pending)
    (hrun : ∀ entry ∈ fields, ∀ query, entry.2 = .query query →
      query.run services context = query.run services other) (register : Register) :
    ∃ results, ∀ store,
      runOutcomes host services claims context fields ⟨store, register⟩ =
          .ok results ⟨store, register⟩ ∧
        runOutcomes host services claims other fields ⟨store, register⟩ =
          .ok results ⟨store, register⟩ := by
  induction fields with
  | nil => exact ⟨([], []), fun _ => ⟨rfl, rfl⟩⟩
  | cons entry rest ih =>
    obtain ⟨label, outcome⟩ := entry
    obtain ⟨result, hresult⟩ := Outcome.exists_attempt host claims
      (hquery _ List.mem_cons_self) (hrun _ List.mem_cons_self) label
    obtain ⟨results, hrest⟩ := ih (fun entry h => hquery entry (List.mem_cons_of_mem _ h))
      fun entry h => hrun entry (List.mem_cons_of_mem _ h)
    exact ⟨listResult label register results result,
      fun store => ⟨runOutcomes_cons (hresult _).1 (hrest store).1,
      runOutcomes_cons (hresult _).2 (hrest store).2⟩⟩

/-- A compiled query operation answers the same in two contexts that its queries do not tell
apart. -/
theorem Host.answer?_execute {compiled : CompiledDocument} (host : Host)
    (hkind : compiled.kind = .query)
    (hquery : ∀ entry ∈ compiled.fields, ∀ pending, entry.2 ≠ .mutation pending)
    (hrun : ∀ entry ∈ compiled.fields, ∀ query, entry.2 = .query query →
      query.run services context = query.run services other) (register : Register) :
    (host.execute services compiled).answer? ⟨context, register⟩ =
      (host.execute services compiled).answer? ⟨other, register⟩ := by
  obtain ⟨⟨data, errors⟩, hresults⟩ := exists_runOutcomes host compiled.claims hquery hrun register
  have hexecute : ∀ store, runOutcomes host services compiled.claims store compiled.fields
      ⟨store, register⟩ = .ok (data, errors) ⟨store, register⟩ →
      (host.execute services compiled).answer? ⟨store, register⟩ =
        some (envelope (.object data) errors) := by
    intro store hstore
    have hfresh : Execution.freshContext ⟨store, register⟩ =
        (.ok store ⟨store, register⟩ : EStateM.Result (Halt Empty) World Value) := rfl
    unfold Execution.answer? Host.execute
    rw [hkind]
    dsimp only
    rw [bind_of_ok hfresh, bind_of_ok hstore]
    rfl
  rw [hexecute context (hresults context).1, hexecute other (hresults other).2]

/-- Texts that compile to the same answer the same. -/
theorem Host.answer?_run {source : String} {request : Request} {register : Register} (host : Host)
    (h : ∀ compiled session,
      (host.compileDocument source request) ⟨0, register⟩ = .ok compiled session →
      (host.execute services compiled).answer? ⟨context, session.register⟩ =
        (host.execute services compiled).answer? ⟨other, session.register⟩) :
    (host.run services source request).answer? ⟨context, register⟩ =
      (host.run services source request).answer? ⟨other, register⟩ := by
  have hcompile : ∀ store,
      ((Execution.ofRun (host.compileDocument source request)).attempt : Execution Empty _)
        ⟨store, register⟩ =
      match (host.compileDocument source request) ⟨0, register⟩ with
      | .ok compiled session => .ok (.ok compiled) ⟨store, session.register⟩
      | .error (.fault fault) session => .ok (.error fault) ⟨store, session.register⟩
      | .error .depth session => .error .depth ⟨store, session.register⟩ := by
    intro store
    unfold attempt Execution.ofRun
    dsimp only
    cases (host.compileDocument source request) ⟨0, register⟩ with
    | ok compiled session => rfl
    | error halt session => cases halt <;> rfl
  have hcontext := hcompile context
  have hother := hcompile other
  unfold Execution.answer? Host.run at *
  cases hcompiled : (host.compileDocument source request) ⟨0, register⟩ with
  | ok compiled session =>
    rw [hcompiled] at hcontext hother
    rw [bind_of_ok hcontext, bind_of_ok hother]
    exact h compiled session hcompiled
  | error halt session =>
    rw [hcompiled] at hcontext hother
    cases halt with
    | fault fault =>
      rw [bind_of_ok hcontext, bind_of_ok hother]
      rfl
    | depth => rw [bind_of_error hcontext, bind_of_error hother]

/-- A text is a discreet query behind a veil. Its sequence arguments do not mention a field, and it
compiles to discreet queries from whose results no hidden member can be reached. -/
structure Host.Discreet (host : Host) (veil : Veil) (name source : String) (request : Request)
    (register : Register) : Prop where
  reads : ∀ document operation vars, Document.read source = .ok document →
    document.operation request.operation? = .ok operation →
    host.schema.bindVariables operation.vars request.vars = .ok vars →
    document.Reads (.behind veil name) vars operation.selections
  compiled : ∀ compiled session,
    (host.compileDocument source request) ⟨0, register⟩ = .ok compiled session →
    compiled.kind = .query ∧ ∀ entry ∈ compiled.fields, entry.2.Discreet veil

/-- A protected field does not leak: a discreet query of a caller who does not meet its requirement
gives the same envelope in contexts that differ in nothing but the member that the field reads. -/
theorem Host.conceals_protected {host : Host} {type name member source : String} {request : Request}
    {register : Register} {services : Services} {context other : Value}
    (hmethods : host.methods = .standard)
    (hprotects : host.schema.Protects request.claims type name member)
    (hdiscreet : host.Discreet (host.schema.veil type member) name source request register)
    (hcontext : (host.schema.veil type member).Hides host.schema.contextTy context other) :
    (host.run services source request).answer? ⟨context, register⟩ =
      (host.run services source request).answer? ⟨other, register⟩ := by
  let A : Assumptions := .behind (host.schema.veil type member) name
  have hensures : Ensures (host.compileDocument source request) fun compiled =>
      ∀ entry ∈ compiled.fields, entry.2.Sound A host.schema.contextTy ∧
        (compiled.kind = .query → ∀ pending, entry.2 ≠ .mutation pending) := by
    refine .check fun document hread => ?_
    have hread := eq_ok_of_mapError hread
    refine compileOperation_ensures (P := fun kind outcome =>
      outcome.Sound A host.schema.contextTy ∧
        (kind = .query → ∀ pending, outcome ≠ .mutation pending))
      (fun _ _ => ⟨nofun, fun _ => nofun⟩) ?_
    intro operation vars hoperation hvars selection hselection expanded hexpanded field hfield
    refine .and (compileTopField_ensures (hprotects.scope_sound hmethods vars) hprotects.grants
      (hdiscreet.reads document operation vars hread hoperation hvars selection hselection expanded
        hexpanded field hfield)) ?_
    cases operation.kind with
    | query => exact .mono (compileTopField_query field) fun _ h _ => h
    | mutation => exact fun _ _ _ _ => nofun
  refine answer?_run host fun compiled session hcompiled => ?_
  have hfields := hensures _ _ _ hcompiled
  obtain ⟨hkind, houtcomes⟩ := hdiscreet.compiled compiled session hcompiled
  refine answer?_execute host hkind (fun entry hentry => (hfields entry hentry).2 hkind) ?_
    session.register
  intro entry hentry query hquery
  obtain ⟨hbody, hclear⟩ := houtcomes entry hentry query hquery
  exact Query.run_eq_of_discreet ((hfields entry hentry).1 query hquery) rfl hbody hclear hcontext
    services

/-- People, whom documents may filter and sort. -/
def peopleField : FieldDefinition :=
  { FieldDefinition.ofMember "People" (.list (.object "Person")) with sequenceArguments := .all }

/-- The number of different people. -/
def varietyField : FieldDefinition where
  name := "variety"
  ty := .int .i32
  resolver := .computed "people.distinct().count()"
  arguments := []
  requirement? := none
  sequenceArguments := .none

/-- A salary, which is protected. -/
def salaryField : FieldDefinition :=
  { FieldDefinition.ofMember "Salary" (.int .i32) with requirement? := some ⟨[["hr"]]⟩ }

/-- A host with people whose salaries are protected. -/
def payrollHost : Host where
  schema := .ofParts "Query" [] [
    .ofFields "Query" none [peopleField, varietyField],
    .ofFields "Person" none [.ofMember "Name" .string, salaryField]] []
  methods := .standard
  depth := 2

/-- Two people of one name, of whom one has the given salary. -/
def payroll (salary : Int64) : Value :=
  .object "Query" [("People", .list [
    .object "Person" [("Name", .text "Ann"), ("Salary", .int 100)],
    .object "Person" [("Name", .text "Ann"), ("Salary", .int salary)]])]

/-- The fields of the payroll are those of people and their number, of names and salaries. -/
theorem payrollHost_field? {type name : String} {field : FieldDefinition}
    (h : payrollHost.schema.field? type name = some field) :
    type = "Query" ∧ name = "people" ∧ field = peopleField ∨
      type = "Query" ∧ name = "variety" ∧ field = varietyField ∨
      type = "Person" ∧ name = "name" ∧ field = .ofMember "Name" .string ∨
      type = "Person" ∧ name = "salary" ∧ field = salaryField := by
  have htypes : payrollHost.schema.types = [
      ("Query", .ofFields "Query" none [peopleField, varietyField]),
      ("Person", .ofFields "Person" none [.ofMember "Name" .string, salaryField])] := rfl
  have hquery : (ObjectType.ofFields "Query" none [peopleField, varietyField]).fields =
      [("people", peopleField), ("variety", varietyField)] := rfl
  have hperson : (ObjectType.ofFields "Person" none
      [.ofMember "Name" .string, salaryField]).fields =
      [("name", .ofMember "Name" .string), ("salary", salaryField)] := rfl
  revert h
  refine Schema.of_forall_fields (P := fun type name field =>
    type = "Query" ∧ name = "people" ∧ field = peopleField ∨
      type = "Query" ∧ name = "variety" ∧ field = varietyField ∨
      type = "Person" ∧ name = "name" ∧ field = .ofMember "Name" .string ∨
      type = "Person" ∧ name = "salary" ∧ field = salaryField) ?_
  rw [htypes]
  simp [hquery, hperson]

/-- Salaries are protected from callers without claims. -/
theorem payrollHost_protects :
    payrollHost.schema.Protects .none "Person" "salary" "Salary" where
  field := ⟨salaryField, ⟨[["hr"]]⟩, rfl, rfl, rfl, by decide⟩
  only other field hfield hresolver := by
    rcases payrollHost_field? hfield with ⟨htype, _⟩ | ⟨htype, _⟩ | ⟨_, rfl, rfl⟩ | ⟨_, rfl, rfl⟩
    · exact absurd htype (by decide)
    · exact absurd htype (by decide)
    · exact absurd (Resolver.member.inj hresolver) (by decide)
    · rfl
  sources owner other field hfield source hsource expr hread := by
    have hnames : (Expr.read "people.distinct().count()").toOption.all
        (fun expr => "salary" ∉ expr.names) = true := by decide +kernel
    rcases payrollHost_field? hfield with ⟨_, _, rfl⟩ | ⟨_, _, rfl⟩ | ⟨_, _, rfl⟩ | ⟨_, _, rfl⟩
    · cases hsource
    · cases List.mem_singleton.mp hsource
      rw [hread] at hnames
      exact of_decide_eq_true hnames
    · cases hsource
    · cases hsource

/-- Stores differ in nothing but the salary of one person. -/
theorem payroll_hides (salary other : Int64) :
    (payrollHost.schema.veil "Person" "Salary").Hides payrollHost.schema.contextTy (payroll salary)
      (payroll other) := by
  have hperson := @Veil.Hides.object (payrollHost.schema.veil "Person" "Salary") (.object "Person")
    "Person" "Person" [("Name", .text "Ann", .text "Ann"), ("Salary", .int salary, .int other)] rfl
    (by
      intro entry hentry hne
      rcases List.mem_cons.mp hentry with rfl | hentry
      · exact absurd rfl hne
      · cases List.mem_singleton.mp hentry
        exact Or.inl ⟨rfl, rfl⟩)
    (by
      intro entry hentry memberTy hvisible
      rcases List.mem_cons.mp hentry with rfl | hentry
      · exact .refl
      · cases List.mem_singleton.mp hentry
        exact absurd ⟨rfl, rfl⟩ hvisible.2)
  have hpeople : (payrollHost.schema.veil "Person" "Salary").Hides (.list (.object "Person"))
      (.list [.object "Person" [("Name", .text "Ann"), ("Salary", .int 100)],
        .object "Person" [("Name", .text "Ann"), ("Salary", .int salary)]])
      (.list [.object "Person" [("Name", .text "Ann"), ("Salary", .int 100)],
        .object "Person" [("Name", .text "Ann"), ("Salary", .int other)]]) :=
    .of_items (.cons .refl (.cons hperson .nil)) rfl
  refine @Veil.Hides.object (payrollHost.schema.veil "Person" "Salary") _ "Query" "Query"
    [("People", _, _)] rfl ?_ ?_
  · intro entry hentry _
    cases List.mem_singleton.mp hentry
    exact Or.inr ⟨.list (.object "Person"), ⟨"people", peopleField, rfl, rfl, rfl⟩,
      fun hhidden => absurd hhidden.1 (by decide)⟩
  · rintro entry hentry memberTy ⟨⟨name, field, hfield, hresolver, rfl⟩, _⟩
    cases List.mem_singleton.mp hentry
    rcases payrollHost_field? hfield with
      ⟨_, _, rfl⟩ | ⟨_, _, rfl⟩ | ⟨htype, _⟩ | ⟨htype, _⟩
    · exact hpeople
    · cases hresolver
    · exact absurd htype (by decide)
    · exact absurd htype (by decide)

/-- A document with one field in one field and without arguments. -/
def isNested (document : Document) : Bool :=
  match document with
  | ⟨[⟨_, _, _, [.field _ _ [] [.field _ _ [] [] _] _]⟩], []⟩ => true
  | _ => false

/-- A query for a record of one text of each item of a list. -/
def listsTexts (compiled : CompiledDocument) : Bool :=
  match compiled with
  | ⟨.query, [(_, .query ⟨.bind (.list (.record [(_, .string)])) .project
      (.unary _ (.member _) (.param _ _)) _ (.record _ _ [.unary _ (.member _) (.param _ _)]),
      _, _⟩)], _⟩ => true
  | _ => false

/-- The query for the names of people is discreet about salaries. -/
theorem payroll_discreet : payrollHost.Discreet (payrollHost.schema.veil "Person" "Salary") "salary"
    "\x7b people \x7b name \x7d \x7d" .empty .empty where
  reads document operation vars hread hoperation _ := by
    have hnested : (Document.read "\x7b people \x7b name \x7d \x7d").toOption.all
        isNested = true := by
      decide +kernel
    rw [hread] at hnested
    change isNested document = true at hnested
    unfold isNested at hnested
    split at hnested
    · cases hoperation
      intro selection hselection expanded hexpanded field hfield
      cases List.mem_singleton.mp hselection
      cases hexpanded
      cases List.mem_singleton.mp hfield
      have hnone : ∀ values, argumentMembers vars [] = .ok values →
          (Assumptions.behind (payrollHost.schema.veil "Person" "Salary") "salary").ReadsSequence
            values := by
        intro values hvalues
        cases hvalues
        exact fun _ _ hmem => absurd hmem List.not_mem_nil
      exact ⟨hnone, ⟨hnone, trivial⟩, trivial⟩
    · cases hnested
  compiled compiled session hcompiled := by
    obtain ⟨found, final, hfound, htexts⟩ := exists_of_yields (show
      (payrollHost.compileDocument "\x7b people \x7b name \x7d \x7d" .empty).yields ⟨0, .empty⟩
        listsTexts = true by decide +kernel)
    cases hcompiled.symm.trans hfound
    unfold listsTexts at htexts
    split at htexts
    · refine ⟨rfl, ?_⟩
      intro entry hentry query hquery
      cases List.mem_singleton.mp hentry
      cases hquery
      refine ⟨?_, ?_⟩
      · simp [Plan.Discreet, Plan.DiscreetAll, Binder.Discreet, UnaryOp.Discreet]
      · refine .list (.record ?_ rfl) rfl
        intro field hfield
        cases List.mem_singleton.mp hfield
        exact Veil.clear_of_isScalar rfl
    · cases htexts

/-- The salaries do not show in a list of names. -/
theorem Host.conceals_protected_payroll :
    payrollHost.methods = .standard ∧
      payrollHost.schema.Protects .none "Person" "salary" "Salary" ∧
      payrollHost.Discreet (payrollHost.schema.veil "Person" "Salary") "salary"
        "\x7b people \x7b name \x7d \x7d" .empty .empty ∧
      (payrollHost.schema.veil "Person" "Salary").Hides payrollHost.schema.contextTy (payroll 100)
        (payroll 200) ∧
      (payrollHost.run [] "\x7b people \x7b name \x7d \x7d" .empty).answer? ⟨payroll 100, .empty⟩ =
        (payrollHost.run [] "\x7b people \x7b name \x7d \x7d" .empty).answer?
          ⟨payroll 200, .empty⟩ :=
  ⟨rfl, payrollHost_protects, payroll_discreet, payroll_hides 100 200,
    Host.conceals_protected rfl payrollHost_protects payroll_discreet (payroll_hides 100 200)⟩

/-- Salaries do show where people are printed without a selection, filtered by their salaries, or
told apart by all their members. -/
theorem Host.reveals_protected :
    payrollHost.schema.Protects .none "Person" "salary" "Salary" ∧
      (payrollHost.schema.veil "Person" "Salary").Hides payrollHost.schema.contextTy (payroll 100)
        (payroll 200) ∧
      ∀ source ∈ ["\x7b people \x7d",
          "\x7b people(filter: \"salary > 150\") \x7b name \x7d \x7d", "\x7b variety \x7d"],
        (payrollHost.run [] source .empty).answer? ⟨payroll 100, .empty⟩ ≠
          (payrollHost.run [] source .empty).answer? ⟨payroll 200, .empty⟩ := by
  refine ⟨payrollHost_protects, payroll_hides 100 200, ?_⟩
  intro source hsource heq
  have hdiffer : ["\x7b people \x7d",
      "\x7b people(filter: \"salary > 150\") \x7b name \x7d \x7d", "\x7b variety \x7d"].all
      (fun source =>
        ((payrollHost.run [] source .empty).answer? ⟨payroll 100, .empty⟩).map Json.compact !=
          ((payrollHost.run [] source .empty).answer? ⟨payroll 200, .empty⟩).map Json.compact) =
        true := by decide +kernel
  have hsource := List.all_eq_true.mp hdiffer source hsource
  rw [heq, bne_self_eq_false] at hsource
  cases hsource

end TypedQuery
