import TypedQuery.Proofs.Query.Independence

/-!
# Spreads that fail

A spread at the top of a query whose fragment is unknown, or reaches itself, has an outcome of its
own: an error under the name of the fragment. Outcomes are kept under their names, and those of
fragments and of fields are the same names to them. So a spread that fails takes the place of a
field before it that is called like the fragment, and gives its own place to whatever is called like
the fragment after it. Where names differ, every field has its data, and every spread its error.
-/

namespace TypedQuery

open Halting

namespace Document

/-- The selections at the top whose fragments can be written out. -/
def expandable (document : Document) (selections : List Selection) : List Selection :=
  selections.filter fun selection => (document.fieldsOf selection).toOption.isSome

/-- The fields at the top that are not part of a spread that fails. -/
def fieldsLeft (document : Document) (selections : List Selection) : List Selection :=
  selections.flatMap fun selection => (document.fieldsOf selection).toOption.getD []

/-- What a selection at the top answers under its names, if `answer` tells what fields answer. -/
def entriesOf (document : Document) (answer : Selection → Except Failure Json)
    (selection : Selection) : List (String × Except Failure Json) :=
  match document.fieldsOf selection with
  | .ok fields => fields.map fun field => (field.responseName, answer field)
  | .error fault =>
    [(selection.responseName, .error (.ofField ⟨fault, [selection.responseName]⟩))]

/-- What selections at the top answer, one after another. -/
def entriesOfAll (document : Document) (answer : Selection → Except Failure Json)
    (selections : List Selection) : List (String × Except Failure Json) :=
  selections.flatMap (document.entriesOf answer)

/-- One of the selections fails under a name. -/
def FailsAs (document : Document) (selections : List Selection) (name : String) : Prop :=
  ∃ selection ∈ selections, ∃ fault, document.fieldsOf selection = .error fault ∧
    selection.responseName = name

variable {document : Document} {operation : Operation} {selection : Selection}
  {selections before after fields : List Selection} {answer : Selection → Except Failure Json}
  {fault : CompileFault} {name : String}

/-- The fields that are left are those of the first selection before those of the others. -/
theorem fieldsLeft_cons : document.fieldsLeft (selection :: selections) =
    (document.fieldsOf selection).toOption.getD [] ++ document.fieldsLeft selections :=
  List.flatMap_cons

/-- The fields that are left of two lists of selections are those of one before those of the other.
-/
theorem fieldsLeft_append : document.fieldsLeft (before ++ after) =
    document.fieldsLeft before ++ document.fieldsLeft after :=
  List.flatMap_append

/-- The first selection answers before the others. -/
theorem entriesOfAll_cons : document.entriesOfAll answer (selection :: selections) =
    document.entriesOf answer selection ++ document.entriesOfAll answer selections :=
  List.flatMap_cons

/-- Of two lists of selections one answers before the other. -/
theorem entriesOfAll_append : document.entriesOfAll answer (before ++ after) =
    document.entriesOfAll answer before ++ document.entriesOfAll answer after :=
  List.flatMap_append

/-- Only a spread can fail to be written out at the top, and it is one part that fails. -/
theorem parts_of_error (hfails : document.fieldsOf selection = .error fault) :
    document.parts [selection] = [.failed selection.responseName fault] := by
  unfold fieldsOf at hfails
  split at hfails
  · cases hfails
  · unfold parts
    rw [List.flatMap_singleton, hfails]

/-- Without the spreads that fail, the fields that are left are all fields of the operation. -/
theorem fieldsOfAll_expandable (selections : List Selection) :
    document.fieldsOfAll (document.expandable selections) =
      .ok (document.fieldsLeft selections) := by
  induction selections with
  | nil => rfl
  | cons selection rest ih =>
    rw [fieldsLeft_cons]
    unfold expandable at ih ⊢
    cases hfields : document.fieldsOf selection with
    | error fault =>
      rw [List.filter_cons_of_neg (by simp [hfields, Except.toOption])]
      exact ih
    | ok fields =>
      rw [List.filter_cons_of_pos (by simp [hfields, Except.toOption]), fieldsOfAll, hfields, ih]
      rfl

/-- Fragments are written out alike in every document that has them. -/
theorem fieldsOfAll_selecting (operation : Operation) (others selections : List Selection) :
    (document.selecting operation others).fieldsOfAll selections =
      document.fieldsOfAll selections := by
  induction selections with
  | nil => rfl
  | cons selection rest ih =>
    unfold fieldsOfAll
    rw [fieldsOf_selecting, ih]

/-- A selection whose fragments can be written out answers as its fields do. -/
theorem entriesOf_of_ok (hfields : document.fieldsOf selection = .ok fields) :
    document.entriesOf answer selection =
      fields.map fun field => (field.responseName, answer field) := by
  unfold entriesOf
  rw [hfields]

/-- A selection whose fragments cannot be written out answers with this failure. -/
theorem entriesOf_of_error (hfails : document.fieldsOf selection = .error fault) :
    document.entriesOf answer selection =
      [(selection.responseName, .error (.ofField ⟨fault, [selection.responseName]⟩))] := by
  unfold entriesOf
  rw [hfails]

/-- The fields of a selection that can be written out are left. -/
theorem mem_fieldsLeft {field : Selection} (hselection : selection ∈ selections)
    (hfields : document.fieldsOf selection = .ok fields) (hmem : field ∈ fields) :
    field ∈ document.fieldsLeft selections := by
  refine List.mem_flatMap.mpr ⟨selection, hselection, ?_⟩
  rw [hfields]
  exact hmem

/-- What selections answer comes from the fields that are left and from the spreads that fail. -/
theorem mem_entriesOfAll {result : Except Failure Json}
    (hmem : (name, result) ∈ document.entriesOfAll answer selections) :
    (∃ field ∈ document.fieldsLeft selections, field.responseName = name) ∨
      document.FailsAs selections name ∧
        ∃ fault, result = .error (.ofField ⟨fault, [name]⟩) := by
  obtain ⟨selection, hselection, hentry⟩ := List.mem_flatMap.mp hmem
  cases hfields : document.fieldsOf selection with
  | ok fields =>
    rw [entriesOf_of_ok hfields] at hentry
    obtain ⟨field, hfield, heq⟩ := List.mem_map.mp hentry
    exact .inl ⟨field, mem_fieldsLeft hselection hfields hfield, congrArg Prod.fst heq⟩
  | error fault =>
    rw [entriesOf_of_error hfields] at hentry
    cases List.mem_singleton.mp hentry
    exact .inr ⟨⟨selection, hselection, fault, hfields, rfl⟩, fault, rfl⟩

/-- A name under which a selection fails is among those that are answered. -/
theorem mem_names_of_failsAs (hfails : document.FailsAs selections name) :
    name ∈ Entries.names (document.entriesOfAll answer selections) := by
  obtain ⟨selection, hselection, fault, hfault, rfl⟩ := hfails
  have hentry : (selection.responseName, .error (.ofField ⟨fault, [selection.responseName]⟩)) ∈
      document.entriesOfAll answer selections := by
    refine List.mem_flatMap.mpr ⟨selection, hselection, ?_⟩
    rw [entriesOf_of_error hfault]
    exact List.mem_singleton_self _
  exact List.mem_map.mpr ⟨_, hentry, rfl⟩

/-! ### What is kept under a name -/

section Kept

variable {field : Selection}

/-- The answer of a field stands among all answers, and after it no other field has its name. -/
theorem entriesOfAll_split
    (hnames : ((document.fieldsLeft (before ++ selection :: after)).map
      Selection.responseName).Nodup)
    (hfields : document.fieldsOf selection = .ok fields) (hmem : field ∈ fields) :
    ∃ first last, document.entriesOfAll answer (before ++ selection :: after) =
        first ++ (field.responseName, answer field) ::
          (last ++ document.entriesOfAll answer after) ∧
      field.responseName ∉ Entries.names last ∧
      field.responseName ∉ (document.fieldsLeft after).map Selection.responseName := by
  obtain ⟨earlier, later, rfl⟩ := List.append_of_mem hmem
  let shown (field : Selection) : String × Except Failure Json :=
    (field.responseName, answer field)
  have hleft : document.fieldsLeft (before ++ selection :: after) =
      (document.fieldsLeft before ++ earlier) ++ field :: (later ++ document.fieldsLeft after) := by
    rw [fieldsLeft_append, fieldsLeft_cons, hfields]
    simp [Except.toOption]
  rw [hleft, List.map_append] at hnames
  obtain ⟨hfresh, -⟩ := List.nodup_cons.mp hnames.of_append_right
  rw [List.map_append, List.mem_append, not_or] at hfresh
  refine ⟨document.entriesOfAll answer before ++ earlier.map shown, later.map shown, ?_, ?_,
    hfresh.2⟩
  · rw [entriesOfAll_append, entriesOfAll_cons, entriesOf_of_ok hfields]
    simp [shown]
  · unfold Entries.names
    rw [List.map_map]
    exact hfresh.1

/-- The answer of a field is kept if no spread fails under its name after it. -/
theorem find?_entriesOfAll_field
    (hnames : ((document.fieldsLeft (before ++ selection :: after)).map
      Selection.responseName).Nodup)
    (hfields : document.fieldsOf selection = .ok fields) (hmem : field ∈ fields)
    (hafter : ¬document.FailsAs after field.responseName) :
    Entries.find? (Entries.ofList (document.entriesOfAll answer (before ++ selection :: after)))
      field.responseName = some (answer field) := by
  obtain ⟨first, last, hsplit, hlast, hleft⟩ := entriesOfAll_split hnames hfields hmem
  rw [hsplit]
  refine Entries.find?_ofList_of_notMem fun hname => ?_
  unfold Entries.names at hname hlast
  rw [List.map_append, List.mem_append] at hname
  obtain ⟨⟨_, result⟩, hentry, rfl⟩ := List.mem_map.mp (hname.resolve_left hlast)
  rcases mem_entriesOfAll hentry with ⟨other, hother, heq⟩ | ⟨hfails, -⟩
  · exact hleft (List.mem_map.mpr ⟨other, hother, heq⟩)
  · exact hafter hfails

/-- The answer of a field is lost if a spread fails under its name after it. -/
theorem find?_entriesOfAll_lost
    (hnames : ((document.fieldsLeft (before ++ selection :: after)).map
      Selection.responseName).Nodup)
    (hfields : document.fieldsOf selection = .ok fields) (hmem : field ∈ fields)
    (hafter : document.FailsAs after field.responseName) :
    ∃ fault, Entries.find?
      (Entries.ofList (document.entriesOfAll answer (before ++ selection :: after)))
      field.responseName = some (.error (.ofField ⟨fault, [field.responseName]⟩)) := by
  obtain ⟨first, last, hsplit, hlast, hleft⟩ := entriesOfAll_split hnames hfields hmem
  have hname : field.responseName ∈
      Entries.names (last ++ document.entriesOfAll answer after) := by
    unfold Entries.names
    rw [List.map_append]
    exact List.mem_append_right _ (mem_names_of_failsAs hafter)
  obtain ⟨result, hentry, hfind⟩ := Entries.find?_ofList_of_mem hname
  rw [hsplit, hfind]
  rcases List.mem_append.mp hentry with hentry | hentry
  · exact absurd (List.mem_map.mpr ⟨_, hentry, rfl⟩) hlast
  · rcases mem_entriesOfAll hentry with ⟨other, hother, heq⟩ | ⟨-, fault, rfl⟩
    · exact absurd (List.mem_map.mpr ⟨other, hother, heq⟩) hleft
    · exact ⟨fault, rfl⟩

/-- The answers of all selections, seen from one that fails. -/
theorem entriesOfAll_error (hfails : document.fieldsOf selection = .error fault) :
    document.entriesOfAll answer (before ++ selection :: after) =
      document.entriesOfAll answer before ++
        (selection.responseName, .error (.ofField ⟨fault, [selection.responseName]⟩)) ::
          document.entriesOfAll answer after := by
  rw [entriesOfAll_append, entriesOfAll_cons, entriesOf_of_error hfails]
  rfl

end Kept

end Document

/-! ### Envelopes with spreads that fail -/

namespace Host

variable {host : Host} {services : Services} {request : Request} {document : Document}
  {operation : Operation} {vars : Entries Value} {world : World}
  {answer : Selection → Except Failure Json}

/-- The parts of selections have answers if the fields that are left have. -/
theorem parts_answer {claims : Claims} {context : Value} {selections : List Selection}
    (hanswer : ∀ field ∈ document.fieldsLeft selections,
      (document.part field).answer? host services claims context vars = some (answer field)) :
    (document.parts selections).map
        (fun part => (part.name, part.answer? host services claims context vars)) =
      (document.entriesOfAll answer selections).map fun entry => (entry.1, some entry.2) := by
  induction selections with
  | nil => rfl
  | cons selection rest ih =>
    rw [Document.fieldsLeft_cons, List.forall_mem_append] at hanswer
    rw [← List.singleton_append, Document.parts_append, List.map_append, ih hanswer.2,
      List.singleton_append, Document.entriesOfAll_cons, List.map_append]
    congr 1
    cases hfields : document.fieldsOf selection with
    | ok fields =>
      rw [hfields] at hanswer
      rw [Document.parts_of_fieldsOf hfields, Document.entriesOf_of_ok hfields, List.map_map,
        List.map_map]
      refine List.map_congr_left fun field hmem => ?_
      simp [hanswer.1 field hmem]
    | error fault =>
      rw [Document.parts_of_error hfields, Document.entriesOf_of_error hfields]
      rfl

/-- The envelope of a query shows what its selections answer, of those with one name the last one in
the place of the first one. -/
theorem runDocument_entries (hmethods : host.methods.Steady)
    (hoperation : document.operation request.operation? = .ok operation)
    (hkind : operation.kind = .query)
    (hvars : host.schema.bindVariables operation.vars request.vars = .ok vars)
    (hanswer : ∀ field ∈ document.fieldsLeft operation.selections,
      (document.part field).answer? host services request.claims world.store vars =
        some (answer field)) :
    ∃ register, host.runDocument services document request world =
      .ok (answerEnvelope register
        (Entries.ofList (document.entriesOfAll answer operation.selections)))
        ⟨world.store, register⟩ := by
  have hanswers := parts_answer hanswer
  let answerPart (part : Part) : Except Failure Json :=
    (part.answer? host services request.claims world.store vars).getD (.ok .null)
  have hparts : ∀ part ∈ document.parts operation.selections,
      part.answer? host services request.claims world.store vars = some (answerPart part) := by
    intro part hmem
    have hentry := List.mem_map_of_mem (f := fun part : Part =>
      (part.name, part.answer? host services request.claims world.store vars)) hmem
    rw [hanswers] at hentry
    obtain ⟨entry, -, heq⟩ := List.mem_map.mp hentry
    have hpart : some entry.2 = part.answer? host services request.claims world.store vars :=
      congrArg Prod.snd heq
    unfold answerPart
    rw [← hpart]
    rfl
  have hshown : (document.parts operation.selections).map (fun part =>
      (part.name, answerPart part)) = document.entriesOfAll answer operation.selections := by
    have hmapped := congrArg (List.map fun entry : String × Option (Except Failure Json) =>
      (entry.1, entry.2.getD (.ok .null))) hanswers
    simpa [Function.comp_def] using hmapped
  rw [← hshown]
  exact runDocument_parts hmethods hoperation hkind hvars hparts

/-- Without the spreads that fail, the envelope shows what the fields that are left answer. -/
theorem runDocument_expandable (hmethods : host.methods.Steady)
    (hoperation : document.operation request.operation? = .ok operation)
    (hkind : operation.kind = .query)
    (hvars : host.schema.bindVariables operation.vars request.vars = .ok vars)
    (hnames : ((document.fieldsLeft operation.selections).map Selection.responseName).Nodup)
    (hanswer : ∀ field ∈ document.fieldsLeft operation.selections,
      (document.part field).answer? host services request.claims world.store vars =
        some (answer field)) :
    ∃ register, host.runDocument services
        (document.selecting operation (document.expandable operation.selections)) request world =
      .ok (answerEnvelope register ((document.fieldsLeft operation.selections).map fun field =>
        (field.responseName, answer field))) ⟨world.store, register⟩ := by
  let selections := document.expandable operation.selections
  have hfields : (document.selecting operation selections).fieldsOfAll selections =
      .ok (document.fieldsLeft operation.selections) := by
    rw [Document.fieldsOfAll_selecting, Document.fieldsOfAll_expandable]
  refine runDocument_fields hmethods (Document.selecting_operation selections hoperation) hkind
    hvars hfields hnames fun field hmem => ?_
  rw [Document.part_selecting]
  exact hanswer field hmem

/-- A field that is left is a part of its operation. -/
theorem part_mem_parts {selections : List Selection} {field : Selection}
    (hmem : field ∈ document.fieldsLeft selections) :
    document.part field ∈ document.parts selections := by
  obtain ⟨selection, hselection, hfield⟩ := List.mem_flatMap.mp hmem
  obtain ⟨before, after, rfl⟩ := List.append_of_mem hselection
  cases hfields : document.fieldsOf selection with
  | error fault =>
    rw [hfields] at hfield
    cases hfield
  | ok fields =>
    rw [hfields] at hfield
    rw [Document.parts_append, ← List.singleton_append, Document.parts_append,
      Document.parts_of_fieldsOf hfields]
    exact List.mem_append_right _ (List.mem_append_left _ (List.mem_map_of_mem hfield))

/-- What a spread that fails at the top of a query costs. The answers of fields and the errors of
spreads that fail are kept under their names, a name in its first place with the last of what it
stands for. So a field has the data that it has without the spreads that fail, unless one of them
fails under its name after it, and then it has that error and no data. The error of a spread is
there, unless a field or another spread that fails has its name after it, and then that is what is
there. If no name is repeated, each field and each spread has its own entry. -/
theorem run_failing_spreads (host : Host) (services : Services) (source : String)
    (request : Request) (hmethods : host.methods.Steady)
    (hread : Document.read source = .ok document)
    (hoperation : document.operation request.operation? = .ok operation)
    (hkind : operation.kind = .query)
    (hnames : ((document.fieldsLeft operation.selections).map Selection.responseName).Nodup)
    (world : World) :
    let selections := operation.selections
    let without := document.selecting operation (document.expandable selections)
    match host.schema.bindVariables operation.vars request.vars with
    | .error fault =>
      host.run services source request world = .ok (failedEnvelope world.register fault) world ∧
        host.runDocument services without request world =
          .ok (failedEnvelope world.register fault) world
    | .ok vars =>
      let answer? field :=
        (document.part field).answer? host services request.claims world.store vars
      (∀ answer : Selection → Except Failure Json,
        (∀ field ∈ document.fieldsLeft selections, answer? field = some (answer field)) →
          let answers := document.entriesOfAll answer
          let kept := Entries.ofList (answers selections)
          (∃ register, host.run services source request world =
            .ok (answerEnvelope register kept) ⟨world.store, register⟩) ∧
          (∃ register, host.runDocument services without request world =
            .ok (answerEnvelope register ((document.fieldsLeft selections).map fun field =>
              (field.responseName, answer field))) ⟨world.store, register⟩) ∧
          (∀ before selection after fields, selections = before ++ selection :: after →
            document.fieldsOf selection = .ok fields → ∀ field ∈ fields,
              let name := field.responseName
              (¬document.FailsAs after name → Entries.find? kept name = some (answer field)) ∧
              (document.FailsAs after name → ∃ fault,
                Entries.find? kept name = some (.error (.ofField ⟨fault, [name]⟩)))) ∧
          (∀ before selection after fault, selections = before ++ selection :: after →
            document.fieldsOf selection = .error fault →
              let name := selection.responseName
              (name ∉ Entries.names (answers after) →
                Entries.find? kept name = some (.error (.ofField ⟨fault, [name]⟩))) ∧
              (name ∈ Entries.names (answers after) → ∃ result, (name, result) ∈ answers after ∧
                Entries.find? kept name = some result)) ∧
          ((Entries.names (answers selections)).Nodup → kept = answers selections)) ∧
      ((∃ field ∈ document.fieldsLeft selections, answer? field = none) →
        ∃ register, host.run services source request world =
          .error .depth ⟨world.store, register⟩) := by
  intro selections without
  rw [Host.run_of_read hread]
  cases hvars : host.schema.bindVariables operation.vars request.vars with
  | error fault =>
    have hwithout := Document.selecting_operation (document.expandable selections) hoperation
    exact ⟨runDocument_unbound hoperation hvars world, runDocument_unbound hwithout hvars world⟩
  | ok vars =>
    refine ⟨fun answer hanswer => ⟨?_, ?_, ?_, ?_, Entries.ofList_of_nodup⟩, ?_⟩
    · exact runDocument_entries hmethods hoperation hkind hvars hanswer
    · exact runDocument_expandable hmethods hoperation hkind hvars hnames hanswer
    · intro before selection after fields hsplit hfields field hmem
      unfold selections at hsplit ⊢
      rw [hsplit] at hnames ⊢
      exact ⟨Document.find?_entriesOfAll_field hnames hfields hmem,
        Document.find?_entriesOfAll_lost hnames hfields hmem⟩
    · intro before selection after fault hsplit hfails
      unfold selections at hsplit ⊢
      rw [hsplit, Document.entriesOfAll_error hfails]
      exact ⟨Entries.find?_ofList_of_notMem, Entries.find?_ofList_of_mem⟩
    · rintro ⟨field, hmem, hdeep⟩
      exact runDocument_tooDeep hmethods hoperation hkind hvars
        ⟨document.part field, part_mem_parts hmem, hdeep⟩

end Host

/-- A spread of an unknown fragment that is called like the field before it. -/
def homonymSource : String :=
  "\x7b name ...name \x7d"

/-- An operation selects a field that has an answer at `newborn`, and a spread of its name that
fails. -/
def Document.hasHomonyms (document : Document) (operation : Operation) : Bool :=
  match operation.selections with
  | [field, spread] => field.isField && field.responseName = spread.responseName &&
      !(document.fieldsOf spread).toOption.isSome &&
      ((document.part field).answer? tallyHost [] .none newborn.store []).isSome
  | _ => false

/-- The name of the newborn is lost to a spread that fails. -/
theorem Host.run_failing_spreads_homonym :
    ∃ document operation field spread, Document.read homonymSource = .ok document ∧
      document.operation none = .ok operation ∧ operation.kind = .query ∧
      operation.selections = [field, spread] ∧
      (∃ kept register fault, tallyHost.run [] homonymSource .empty newborn =
          .ok (answerEnvelope register kept) ⟨newborn.store, register⟩ ∧
        Entries.find? kept field.responseName =
          some (.error (.ofField ⟨fault, [field.responseName]⟩))) ∧
      ((tallyHost.run [] homonymSource .empty).answer? newborn).map Json.compact =
        some ("\x7b\"data\":\x7b\"name\":null\x7d,\"errors\":[\x7b\"message\":" ++
          "\"Fragment 'name' is not defined\",\"path\":[\"name\"]\x7d]\x7d") ∧
      ((tallyHost.run [] "\x7b name \x7d" .empty).answer? newborn).map Json.compact =
        some "\x7b\"data\":\x7b\"name\":\"Ann\"\x7d\x7d" := by
  obtain ⟨document, operation, hread, hoperation, hkind, hvars, htest⟩ :=
    exists_of_isQuery (show isQuery homonymSource Document.hasHomonyms = true by decide +kernel)
  unfold Document.hasHomonyms at htest
  split at htest
  · rename_i field spread hselections
    rw [Bool.and_eq_true, Bool.and_eq_true, Bool.and_eq_true, decide_eq_true_iff] at htest
    obtain ⟨⟨⟨hfield, hname⟩, hfails⟩, hsome⟩ := htest
    obtain ⟨result, hresult⟩ := Option.isSome_iff_exists.mp hsome
    have hself : document.fieldsOf field = .ok [field] := by
      unfold Document.fieldsOf
      rw [if_pos hfield]
    cases hspread : document.fieldsOf spread with
    | ok fields => simp [hspread, Except.toOption] at hfails
    | error fault =>
      have hleft : document.fieldsLeft operation.selections = [field] := by
        rw [hselections, Document.fieldsLeft_cons, Document.fieldsLeft_cons, hself, hspread]
        rfl
      have hcost := tallyHost.run_failing_spreads [] homonymSource .empty
        MethodLibrary.steady_standard hread hoperation hkind (by simp [hleft]) newborn
      change match tallyHost.schema.bindVariables operation.vars [] with
        | .error _ => _
        | .ok _ => _ at hcost
      rw [hvars] at hcost
      have hanswers : ∀ other ∈ document.fieldsLeft operation.selections,
          (document.part other).answer? tallyHost [] .none newborn.store [] = some result := by
        rw [hleft]
        exact List.forall_mem_singleton.mpr hresult
      obtain ⟨⟨register, hrun⟩, -, hfields, -⟩ := hcost.1 (fun _ => result) hanswers
      obtain ⟨lost, hlost⟩ := (hfields [] field [spread] [field] hselections hself field
        (List.mem_singleton_self field)).2
          ⟨spread, List.mem_singleton_self spread, fault, hspread, hname.symm⟩
      exact ⟨document, operation, field, spread, hread, hoperation, hkind, hselections,
        ⟨_, register, lost, hrun, hlost⟩, by decide +kernel, by decide +kernel⟩
  · cases htest

end TypedQuery
