import TypedQuery.Proofs.Document.Reading
import TypedQuery.Proofs.Query.Independence

/-!
# Query documents mean what they say

A query document without arguments, on a schema of plain fields, shows the reading of its selections
on the store: one entry for each response name, with the value of the last selection of this name,
and no errors. The session, the parameters and the record types of its compilation leave no trace in
what is shown.
-/

namespace TypedQuery

open Halting

/-- What a part of a query shows of the context of the host. A part that cannot be written out shows
nothing. -/
def Part.reading (schema : Schema) (context : Value) : Part → Json
  | .field selection => selection.reading schema schema.queryType context
  | .failed _ _ => .null

namespace Document

/-- What the parts of a query show of the context of the host, under their names. -/
def shown (document : Document) (schema : Schema) (context : Value)
    (selections : List Selection) : List (String × Json) :=
  (document.parts selections).map fun part => (part.name, part.reading schema context)

variable {document : Document} {operation : Operation} {selections fields : List Selection}

/-- Where all fragments can be written out, the parts of an operation are what its selections are
written out as. -/
theorem parts_of_expandSelections
    (h : expandSelections (document.fragmentSelections (document.fragments.length + 1) [])
      selections = .ok fields) :
    document.parts selections = fields.map .field := by
  induction selections generalizing fields with
  | nil =>
    cases h
    rfl
  | cons selection rest ih =>
    unfold expandSelections at h
    cases hfirst : selection.expand
        (document.fragmentSelections (document.fragments.length + 1) []) with
    | error fault =>
      rw [hfirst] at h
      cases h
    | ok first =>
      rw [hfirst] at h
      cases hothers : expandSelections
          (document.fragmentSelections (document.fragments.length + 1) []) rest with
      | error fault =>
        rw [hothers] at h
        cases h
      | ok others =>
        rw [hothers] at h
        cases h
        rw [← List.singleton_append, parts_append, ih hothers, List.map_append]
        congr 1
        unfold parts expand
        rw [List.flatMap_singleton, hfirst]

/-- The fields of a document without arguments have none, fragments written out. -/
theorem argumentless_of_mem_parts (harguments : document.withoutArguments operation = true)
    {selection : Selection} (hmem : .field selection ∈ document.parts operation.selections) :
    selection.argumentless = true := by
  obtain ⟨hselections, hfragments⟩ := Bool.and_eq_true_iff.mp harguments
  obtain ⟨whole, hwhole, hpart⟩ := List.mem_flatMap.mp hmem
  cases hexpand : document.expand whole with
  | error fault =>
    rw [hexpand] at hpart
    cases List.mem_singleton.mp hpart
  | ok expanded =>
    rw [hexpand] at hpart
    obtain ⟨field, hfield, heq⟩ := List.mem_map.mp hpart
    cases heq
    have hwritten := expand_writesOut (fragmentSelections_writesOut _ _) whole expanded hexpand
      [] [] .nil
    rw [List.append_nil] at hwritten
    have hargumentless := hwritten.areArgumentless (List.all_eq_true.mp hfragments)
      (areArgumentless_iff.mpr (List.forall_mem_singleton.mpr
        (areArgumentless_iff.mp hselections whole hwhole)))
    exact areArgumentless_iff.mp hargumentless selection hfield

end Document

section Compiling

variable {host : Host} {services : Services} {claims : Claims} {context : Value}
  {vars : Entries Value}

/-- The query of a node shows the reading of the context. -/
theorem Node.Shows.run_ofNode {node : Node} {schema : Schema} {contextTy : Ty}
    {shown : Value → Json} (h : node.Shows schema contextTy contextName shown)
    (hcontext : context.Fills schema.members contextTy) (services : Services) :
    ∃ value, (Query.ofNode node contextTy).run services context = .ok value ∧
      value.toJson (some schema) = shown context := by
  obtain ⟨plan, rfl, hplan⟩ := h
  exact hplan services [(contextName, context)] context rfl hcontext

/-- The outcomes of parts that compile one after another, each compiled in some session. -/
theorem compileParts_eq_ok {scope : Scope} {parts : List Part} {outcomes fields : Entries Outcome}
    {session final : Session}
    (hrun : compileParts scope claims parts outcomes session = .ok fields final) :
    ∃ pairs : List (Part × Outcome), pairs.map Prod.fst = parts ∧
      fields = Entries.extend outcomes (pairs.map fun pair => (pair.1.name, pair.2)) ∧
      ∀ pair ∈ pairs, ∃ start between, pair.1.compile scope claims start = .ok pair.2 between := by
  induction parts generalizing outcomes session with
  | nil =>
    cases hrun
    exact ⟨[], rfl, rfl, fun _ h => absurd h List.not_mem_nil⟩
  | cons part rest ih =>
    unfold compileParts at hrun
    obtain ⟨outcome, between, hpart, hrest⟩ := bind_eq_ok.mp hrun
    obtain ⟨pairs, rfl, hfields, hpairs⟩ := ih hrest
    exact ⟨(part, outcome) :: pairs, rfl, hfields,
      List.forall_mem_cons.mpr ⟨⟨session, between, hpart⟩, hpairs⟩⟩

/-- A part that compiles gives its reading, if it has no arguments and the schema is plain. -/
theorem Part.gives_reading (hschema : host.schema.Plain)
    (hcontext : context.Fills host.schema.members host.schema.contextTy) {part : Part}
    (hpart : ∀ selection, part = .field selection → selection.argumentless = true)
    {outcome : Outcome} {session final : Session}
    (hrun : part.compile (host.scope vars) claims session = .ok outcome final)
    (hfailed : ∀ failure, outcome ≠ .failed failure) :
    outcome.Gives host services claims context part.name
      (.ok (part.reading host.schema context)) := by
  cases part with
  | failed name fault =>
    cases hrun
    exact absurd rfl (hfailed _)
  | field selection =>
    change compileTopField (host.scope vars) .parameter claims .query selection session = _ at hrun
    rw [compileTopField_eq] at hrun
    split at hrun
    · rename_i node between hnode
      cases hrun
      have hshows : node.Shows host.schema host.schema.contextTy contextName fun object =>
          selection.reading host.schema host.schema.queryType object :=
        Scope.compileSelection_shows hschema rfl [] contextName selection (hpart selection rfl)
          _ _ _ hnode
      obtain ⟨value, hvalue, hjson⟩ := hshows.run_ofNode hcontext services
      have hanswer : (Query.ofNode node host.schema.contextTy).answer host services context
          selection.responseName = .ok (selection.reading host.schema host.schema.queryType
            context) := by
        unfold Query.answer
        rw [hvalue, ← hjson]
      change (Outcome.query (.ofNode node host.schema.contextTy)).Gives host services claims context
        selection.responseName (.ok (selection.reading host.schema host.schema.queryType context))
      rw [← hanswer]
      exact Outcome.gives_query _ _
    · cases hrun
      exact absurd rfl (hfailed _)
    · cases hrun

end Compiling

section Running

variable {host : Host} {services : Services} {source : String} {request : Request}
  {document : Document} {operation : Operation} {world : World} {compiled : CompiledDocument}
  {session : Session}

/-- The envelope of answers that are all results has no errors. -/
theorem answerEnvelope_ok (register : Register) (shown : Entries Json) :
    answerEnvelope register (Entries.mapValues .ok shown) =
      .object [("data", .object shown)] := by
  have hdata : (Entries.mapValues .ok shown).map shownEntry = shown := by
    unfold Entries.mapValues
    rw [List.map_map]
    exact List.map_id shown
  have herrors : (Entries.mapValues .ok shown).filterMap (shownError? register) = [] := by
    unfold Entries.mapValues
    rw [List.filterMap_map]
    exact List.filterMap_eq_nil_iff.mpr fun _ _ => rfl
  unfold answerEnvelope
  rw [hdata, herrors]
  rfl

/-- A query without arguments shows what the store holds. -/
theorem Host.runDocument_reads (hschema : host.schema.Plain)
    (hoperation : document.operation request.operation? = .ok operation)
    (hkind : operation.kind = .query) (harguments : document.withoutArguments operation = true)
    (hcompiled : (host.compileOperation document request) ⟨0, world.register⟩ =
      .ok compiled session)
    (hfailed : ∀ entry ∈ compiled.fields, ∀ failure, entry.2 ≠ .failed failure)
    (hstore : world.store.Fills host.schema.members host.schema.contextTy) :
    host.runDocument services document request world =
      .ok (.object [("data", .object (Entries.ofList
        (document.shown host.schema world.store operation.selections)))])
        ⟨world.store, session.register⟩ := by
  rw [Host.runDocument_of_compiled services hcompiled]
  obtain ⟨found, hfound, hbound⟩ := check_eq_ok.mp hcompiled
  cases hoperation.symm.trans hfound
  obtain ⟨vars, hvars, -⟩ := check_eq_ok.mp hbound
  rw [Host.compileOperation_query hoperation hkind hvars] at hcompiled
  obtain ⟨fields, between, hparts, hend⟩ := bind_eq_ok.mp hcompiled
  obtain ⟨rfl, rfl⟩ := pure_eq_ok.mp hend
  obtain ⟨pairs, hpairs, hfields, houtcomes⟩ := compileParts_eq_ok (mapFault_eq_ok.mp hparts)
  let triples : List (String × Outcome × Except Failure Json) :=
    pairs.map fun pair => (pair.1.name, pair.2, .ok (pair.1.reading host.schema world.store))
  have hkept : fields = Entries.mapValues Prod.fst (Entries.ofList triples) := by
    rw [hfields, ← Entries.ofList_mapValues]
    unfold Entries.mapValues triples
    rw [List.map_map]
    rfl
  have hshown : Entries.mapValues Prod.snd (Entries.ofList triples) = Entries.mapValues .ok
      (Entries.ofList (document.shown host.schema world.store operation.selections)) := by
    rw [← Entries.ofList_mapValues, ← Entries.ofList_mapValues]
    unfold Entries.mapValues triples Document.shown
    rw [← hpairs, List.map_map, List.map_map, List.map_map]
    rfl
  have hgives : ∀ triple ∈ Entries.ofList triples, triple.2.1.Gives host services request.claims
      world.store triple.1 triple.2.2 := by
    intro triple htriple
    have houtcome : (triple.1, triple.2.1) ∈ fields := by
      rw [hkept]
      exact List.mem_map_of_mem htriple
    obtain ⟨pair, hpair, rfl⟩ := List.mem_map.mp (Entries.mem_of_mem_ofList htriple)
    obtain ⟨start, final, hrun⟩ := houtcomes pair hpair
    refine Part.gives_reading hschema hstore ?_ hrun (hfailed _ houtcome)
    intro selection hselection
    refine Document.argumentless_of_mem_parts harguments ?_
    rw [← hselection, ← hpairs]
    exact List.mem_map_of_mem hpair
  have hexecuted : host.execute services ⟨.query, Entries.mapValues Prod.fst
      (Entries.ofList triples), request.claims⟩ ⟨world.store, session.register⟩ =
        .ok (answerEnvelope session.register (Entries.mapValues Prod.snd (Entries.ofList triples)))
          ⟨world.store, session.register⟩ := Host.execute_gives hgives
  rw [hkept, hexecuted, hshown, answerEnvelope_ok]

/-- A query document without arguments that compiles, on a schema of plain fields and a store of the
type of the context without gaps in its lists, shows the reading of its selections, without errors:
for each response name, in the order in which the names first appear, the value of the last
selection of this name. Fragments are read in the place of their spreads. The store stays as it
is. -/
theorem Host.run_reads (host : Host) (services : Services) (source : String) (request : Request)
    (hschema : host.schema.Plain) (hread : Document.read source = .ok document)
    (hoperation : document.operation request.operation? = .ok operation)
    (hkind : operation.kind = .query) (harguments : document.withoutArguments operation = true)
    (hcompiled : (host.compileDocument source request) ⟨0, world.register⟩ = .ok compiled session)
    (hfailed : ∀ entry ∈ compiled.fields, ∀ failure, entry.2 ≠ .failed failure)
    (hstore : world.store.Fills host.schema.members host.schema.contextTy) :
    host.run services source request world =
        .ok (.object [("data", .object (Entries.ofList
          (document.shown host.schema world.store operation.selections)))])
          ⟨world.store, session.register⟩ ∧
      ∀ fields, document.fields operation = .ok fields →
        document.WritesOut operation.selections fields ∧
          document.shown host.schema world.store operation.selections =
            fields.map fun field => (field.responseName,
              field.reading host.schema host.schema.queryType world.store) := by
  have hcompiled : (host.compileOperation document request) ⟨0, world.register⟩ =
      .ok compiled session := by
    unfold Host.compileDocument at hcompiled
    rw [hread] at hcompiled
    exact hcompiled
  refine ⟨?_, fun fields hfields => ⟨?_, ?_⟩⟩
  · rw [Host.run_of_read hread]
    exact Host.runDocument_reads hschema hoperation hkind harguments hcompiled hfailed hstore
  · exact Document.expandSelections_writesOut (Document.fragmentSelections_writesOut _ _) _ _
      hfields
  · unfold Document.shown
    rw [Document.parts_of_expandSelections hfields, List.map_map]
    rfl

end Running

/-- A host of people, one of whom may be the boss. -/
def staffHost : Host where
  schema := .ofParts "Query" [] [
    .ofFields "Query" none [.ofMember "People" (.list (.object "Person")),
      .ofMember "Boss" (.object "Person")],
    .ofFields "Person" none [.ofMember "Name" .string, .ofMember "Age" (.nullable (.int .i32))]] []
  methods := .standard
  depth := 1

/-- Two people, one of unknown age. -/
def staffPeople : List Value :=
  [.object "Person" [("Name", .text "Ann"), ("Age", .int 36)],
    .object "Person" [("Name", .text "Bob")]]

/-- The people, and no boss. -/
def staff : World :=
  ⟨.object "Query" [("People", .list staffPeople)], .empty⟩

/-- The people are selected twice under one name. -/
def staffSource : String :=
  "\x7b people \x7b age \x7d boss \x7b name \x7d people \x7b ...brief \x7d \x7d " ++
    "fragment brief on Person \x7b name years: age \x7d"

/-- The members that the fields of the host read, with their object types. -/
def staffMembers : List (String × String × Ty) :=
  [("Query", "People", .list (.object "Person")), ("Query", "Boss", .object "Person"),
    ("Person", "Name", .string), ("Person", "Age", .nullable (.int .i32))]

/-- Whether all fields of a schema that take a member take one of some members. -/
def Schema.takesOnly (schema : Schema) (members : List (String × String × Ty)) : Bool :=
  schema.types.all fun type => type.2.fields.all fun field =>
    match field.2.resolver with
    | .member host => decide ((type.1, host, field.2.ty) ∈ members)
    | _ => true

/-- The members of the host are those of the staff. -/
theorem staffHost_members {type host : String} {ty : Ty}
    (h : staffHost.schema.members type host ty) : (type, host, ty) ∈ staffMembers := by
  have hlisted : staffHost.schema.takesOnly staffMembers = true := by decide +kernel
  obtain ⟨name, field, hfield, hresolver, rfl⟩ := h
  refine Schema.of_forall_fields (P := fun type _ field => ∀ host,
    field.resolver = .member host → (type, host, field.ty) ∈ staffMembers) ?_ hfield host hresolver
  intro type htype field hfield host hresolver
  have hmem := List.all_eq_true.mp (List.all_eq_true.mp hlisted type htype) field hfield
  rw [hresolver] at hmem
  exact of_decide_eq_true hmem

/-- What stands under a name in the people is a text or the age of the first one. -/
theorem staffPeople_fill {person : Value} (hperson : person ∈ staffPeople) :
    person.Fills staffHost.schema.members (.object "Person") := by
  have hentries : ∃ entries, person = .object "Person" entries ∧ ∀ entry ∈ entries,
      (entry.1 = "Name" ∧ ∃ s, entry.2 = .text s) ∨ entry = ("Age", .int 36) := by
    unfold staffPeople at hperson
    rcases List.mem_cons.mp hperson with rfl | hperson
    · exact ⟨_, rfl, by simp⟩
    · cases List.mem_singleton.mp hperson
      exact ⟨_, rfl, by simp⟩
  obtain ⟨entries, rfl, hentries⟩ := hentries
  refine ⟨.object rfl fun host ty value hmember hvalue => ?_, .object fun entry hentry => ?_⟩
  · have hlisted := staffHost_members hmember
    simp only [staffMembers, List.mem_cons, Prod.mk.injEq, List.not_mem_nil, or_false] at hlisted
    rcases hentries _ (Entries.mem_of_find? hvalue) with ⟨rfl, s, rfl⟩ | hage
    · obtain rfl : ty = .string := by simpa using hlisted
      exact .text rfl
    · cases hage
      obtain rfl : ty = .nullable (.int .i32) := by simpa using hlisted
      exact .int rfl rfl
  · rcases hentries entry hentry with ⟨-, s, hs⟩ | rfl
    · rw [hs]
      exact .scalar rfl
    · exact .scalar rfl

/-- The store of the staff fills its type. -/
theorem staff_fills : staff.store.Fills staffHost.schema.members staffHost.schema.contextTy := by
  refine ⟨.object rfl fun host ty value hmember hvalue => ?_, .object fun entry hentry => ?_⟩
  · have hlisted : ("Query", host, ty) ∈ staffMembers := staffHost_members hmember
    simp only [staffMembers, List.mem_cons, Prod.mk.injEq, List.not_mem_nil, or_false] at hlisted
    cases List.mem_singleton.mp (Entries.mem_of_find? hvalue)
    obtain rfl : ty = .list (.object "Person") := by simpa using hlisted
    exact .list rfl fun person hperson => (staffPeople_fill hperson).1
  · rw [List.mem_singleton.mp hentry]
    refine .list (fun person hperson => ?_) fun person hperson => (staffPeople_fill hperson).2
    unfold staffPeople at hperson
    rcases List.mem_cons.mp hperson with rfl | hperson
    · rfl
    · cases List.mem_singleton.mp hperson
      rfl

/-- The second selection of the people is shown, in the place of the first one, and there is no
boss. -/
theorem Host.run_reads_staff :
    ∃ document operation session, Document.read staffSource = .ok document ∧
      document.operation none = .ok operation ∧ operation.kind = .query ∧
      document.withoutArguments operation = true ∧
      staffHost.run [] staffSource .empty staff = .ok (.object [("data", .object (Entries.ofList
        (document.shown staffHost.schema staff.store operation.selections)))])
        ⟨staff.store, session⟩ ∧
      ((staffHost.run [] staffSource .empty).answer? staff).map Json.compact =
        some ("\x7b\"data\":\x7b\"people\":[\x7b\"name\":\"Ann\",\"years\":36\x7d," ++
          "\x7b\"name\":\"Bob\",\"years\":null\x7d],\"boss\":null\x7d\x7d") := by
  obtain ⟨document, operation, hread, hoperation, hkind, -, harguments⟩ := exists_of_isQuery
    (show isQuery staffSource Document.withoutArguments = true by decide +kernel)
  obtain ⟨compiled, session, hcompiled, hqueries⟩ := exists_of_yields
    (show (staffHost.compileDocument staffSource .empty).yields ⟨0, staff.register⟩
      (fun compiled => compiled.fields.all fun entry => entry.2.isQuery) = true by decide +kernel)
  have hfailed : ∀ entry ∈ compiled.fields, ∀ failure, entry.2 ≠ .failed failure := by
    intro entry hentry failure heq
    have hquery := List.all_eq_true.mp hqueries entry hentry
    rw [heq] at hquery
    cases hquery
  have hreads := staffHost.run_reads [] staffSource .empty
    (Schema.plain_of_isPlain (by decide +kernel)) hread hoperation hkind harguments hcompiled
    hfailed staff_fills
  exact ⟨document, operation, session.register, hread, hoperation, hkind, harguments, hreads.1,
    by decide +kernel⟩

end TypedQuery
