import TypedQuery.Proofs.Query.Answers

/-!
# Fields of a query do not interfere

The fields at the top of a query share the session in which they are compiled, the store and the
envelope. Each of them shows there what it shows alone, in its own place: its result, or `null` and
one error with a path that starts with its response name.
-/

namespace TypedQuery

open Halting

/-- The selection is a field. -/
def Selection.isField : Selection → Bool
  | .field _ _ _ _ _ => true
  | .spread _ _ => false

namespace Document

/-- The fields that a selection at the top of an operation stands for: a field stands for itself,
and a fragment for the fields in it. -/
def fieldsOf (document : Document) (selection : Selection) : Except CompileFault (List Selection) :=
  if selection.isField then .ok [selection] else document.expand selection

/-- The fields at the top of an operation, if all fragments at the top can be written out. -/
def fieldsOfAll (document : Document) : List Selection → Except CompileFault (List Selection)
  | [] => .ok []
  | selection :: rest => do
    let first ← document.fieldsOf selection
    let others ← document.fieldsOfAll rest
    return first ++ others

/-- The part of an operation that a field is. Fragments may be spread in its selections. -/
def part (document : Document) (field : Selection) : Part :=
  match field with
  | .field name alias? arguments selections position =>
    match expandSelections (document.fragmentSelections (document.fragments.length + 1) [])
        selections with
    | .ok inner => .field (.field name alias? arguments inner position)
    | .error fault => .failed (alias?.getD name) fault
  | .spread name _ => .failed name (.unknownFragment name)

/-- The document that has only one operation, with other selections in it, and all its fragments. -/
def selecting (document : Document) (operation : Operation) (selections : List Selection) :
    Document :=
  { document with operations := [{ operation with selections := selections }] }

variable {document : Document} {operation : Operation} {field : Selection}
  {selections : List Selection}

/-- The part of a field has its response name. -/
@[simp] theorem name_part (document : Document) (field : Selection) :
    (document.part field).name = field.responseName := by
  cases field with
  | spread name position => rfl
  | field name alias? arguments selections position =>
    unfold part
    dsimp only
    split
    · rfl
    · rfl

/-- A field is one part of an operation. -/
theorem parts_field (hfield : field.isField = true) :
    document.parts [field] = [document.part field] := by
  cases field with
  | spread name position => cases hfield
  | field name alias? arguments selections position =>
    unfold parts part expand Selection.expand
    rw [List.flatMap_singleton]
    dsimp only
    cases expandSelections (document.fragmentSelections (document.fragments.length + 1) [])
      selections with
    | ok inner => rfl
    | error fault => rfl

/-- Two lists of selections have the parts of one before those of the other. -/
theorem parts_append (first rest : List Selection) :
    document.parts (first ++ rest) = document.parts first ++ document.parts rest :=
  List.flatMap_append

/-- A field in which fragments have been written out is a part as it is. -/
theorem part_of_written (hfield : field.Written) : document.part field = .field field := by
  cases hfield with
  | field hselections =>
    unfold part
    dsimp only
    rw [expandSelections_of_written _ hselections]

/-- A selection without spreads is a field. -/
theorem isField_of_written (hfield : field.Written) : field.isField = true := by
  cases hfield
  rfl

/-- A selection stands for fields. -/
theorem fieldsOf_isField (selection : Selection) :
    Returns (document.fieldsOf selection) fun fields => ∀ field ∈ fields, field.isField = true := by
  unfold fieldsOf
  split
  · rename_i hfield
    exact .ok (List.forall_mem_singleton.mpr hfield)
  · exact (document.expand_written selection).mono fun fields hwritten field hmem =>
      isField_of_written (hwritten field hmem)

/-- The parts of a selection are those of its fields. -/
theorem parts_of_fieldsOf {selection : Selection} {fields : List Selection}
    (hfields : document.fieldsOf selection = .ok fields) :
    document.parts [selection] = fields.map document.part := by
  unfold fieldsOf at hfields
  split at hfields
  · rename_i hfield
    cases hfields
    exact parts_field hfield
  · have hwritten := document.expand_written selection fields hfields
    unfold parts
    rw [List.flatMap_singleton, hfields]
    exact List.map_congr_left fun field hmem => (part_of_written (hwritten field hmem)).symm

/-- The parts of an operation are those of its fields, if all fragments at the top can be written
out. -/
theorem parts_of_fieldsOfAll {selections : List Selection} {fields : List Selection}
    (hfields : document.fieldsOfAll selections = .ok fields) :
    document.parts selections = fields.map document.part := by
  induction selections generalizing fields with
  | nil =>
    cases hfields
    rfl
  | cons selection rest ih =>
    unfold fieldsOfAll at hfields
    cases hfirst : document.fieldsOf selection with
    | error fault =>
      rw [hfirst] at hfields
      cases hfields
    | ok first =>
      rw [hfirst] at hfields
      cases hothers : document.fieldsOfAll rest with
      | error fault =>
        rw [hothers] at hfields
        cases hfields
      | ok others =>
        rw [hothers] at hfields
        cases hfields
        rw [← List.singleton_append, parts_append, parts_of_fieldsOf hfirst, ih hothers,
          List.map_append]

/-- What a fragment stands for depends on the fragments of the document only. -/
theorem fragmentSelections_selecting (fuel : Nat) :
    (document.selecting operation selections).fragmentSelections fuel =
      document.fragmentSelections fuel := by
  induction fuel with
  | zero => rfl
  | succ fuel ih =>
    funext active name
    unfold fragmentSelections
    rw [ih]
    rfl

/-- A selection stands for the same fields in every document that has the fragments. -/
theorem fieldsOf_selecting (selection : Selection) :
    (document.selecting operation selections).fieldsOf selection = document.fieldsOf selection := by
  unfold fieldsOf expand
  rw [fragmentSelections_selecting]
  rfl

/-- A field is the same part in every document that has the fragments. -/
theorem part_selecting (other : Selection) :
    (document.selecting operation selections).part other = document.part other := by
  cases other with
  | spread name position => rfl
  | field name alias? arguments inner position =>
    unfold part
    rw [fragmentSelections_selecting]
    rfl

/-- The document of other selections has the operation that is meant. -/
theorem selecting_operation {name? : Option String} (selections : List Selection)
    (hoperation : document.operation name? = .ok operation) :
    (document.selecting operation selections).operation name? =
      .ok { operation with selections := selections } :=
  operation_singleton selections document.fragments hoperation

end Document

namespace Host

variable {host : Host} {services : Services} {request : Request} {document : Document}
  {operation : Operation} {vars : Entries Value} {world : World} {field : Selection}

/-- The envelope of a query document shows the answers of its fields in their order, if their
response names are different. -/
theorem runDocument_fields {fields : List Selection} (hmethods : host.methods.Steady)
    (hoperation : document.operation request.operation? = .ok operation)
    (hkind : operation.kind = .query)
    (hvars : host.schema.bindVariables operation.vars request.vars = .ok vars)
    (hfields : document.fieldsOfAll operation.selections = .ok fields)
    (hnames : (fields.map Selection.responseName).Nodup) {answer : Selection → Except Failure Json}
    (hanswer : ∀ field ∈ fields,
      (document.part field).answer? host services request.claims world.store vars =
        some (answer field)) :
    ∃ register, host.runDocument services document request world =
      .ok (answerEnvelope register (fields.map fun field => (field.responseName, answer field)))
        ⟨world.store, register⟩ := by
  have hparts := Document.parts_of_fieldsOfAll hfields
  let answerPart (part : Part) : Except Failure Json :=
    (part.answer? host services request.claims world.store vars).getD (.ok .null)
  have hanswers : ∀ part ∈ document.parts operation.selections,
      part.answer? host services request.claims world.store vars = some (answerPart part) := by
    rw [hparts, List.forall_mem_map]
    intro field hmem
    unfold answerPart
    rw [hanswer field hmem]
    rfl
  obtain ⟨register, hrun⟩ := runDocument_parts hmethods hoperation hkind hvars hanswers
  have hshown : (document.parts operation.selections).map (fun part =>
      (part.name, answerPart part)) =
        fields.map fun field => (field.responseName, answer field) := by
    rw [hparts, List.map_map]
    refine List.map_congr_left fun field hmem => ?_
    simp [answerPart, hanswer field hmem]
  have hdistinct : (Entries.names (fields.map fun field =>
      (field.responseName, answer field))).Nodup := by
    unfold Entries.names
    rw [List.map_map]
    exact hnames
  rw [hshown, Entries.ofList_of_nodup hdistinct] at hrun
  exact ⟨register, hrun⟩

end Host

/-- A source text is a query document without variables, which passes a test. -/
def isQuery (source : String) (test : Document → Operation → Bool) : Bool :=
  match Document.read source with
  | .error _ => false
  | .ok document =>
    match document.operation none with
    | .error _ => false
    | .ok operation => operation.kind = .query && operation.vars.isEmpty && test document operation

/-- A query document without variables has an operation whose variables are bound to nothing. -/
theorem exists_of_isQuery {source : String} {test : Document → Operation → Bool}
    (h : isQuery source test = true) :
    ∃ document operation, Document.read source = .ok document ∧
      document.operation none = .ok operation ∧ operation.kind = .query ∧
      (∀ schema : Schema, schema.bindVariables operation.vars [] = .ok []) ∧
      test document operation = true := by
  unfold isQuery at h
  split at h
  · cases h
  · rename_i document hread
    split at h
    · cases h
    · rename_i operation hoperation
      rw [Bool.and_eq_true, Bool.and_eq_true, decide_eq_true_iff, List.isEmpty_iff] at h
      obtain ⟨⟨hkind, hnone⟩, htest⟩ := h
      refine ⟨document, operation, hread, hoperation, hkind, fun schema => ?_, htest⟩
      rw [hnone]
      rfl

/-- A host that shares by age. -/
def tallyHost : Host where
  schema := .ofParts "Query" [] [.ofFields "Query" none [.ofMember "Name" .string,
    .ofMember "Age" (.int .i32),
    { name := "share"
      ty := .int .i32
      resolver := .computed "100 / age"
      arguments := []
      requirement? := none
      sequenceArguments := .none }]] []
  methods := .standard
  depth := 1

/-- Somebody who is not yet one year old. -/
def newborn : World := ⟨.object "Query" [("Name", .text "Ann"), ("Age", .int 0)], .empty⟩

end TypedQuery
