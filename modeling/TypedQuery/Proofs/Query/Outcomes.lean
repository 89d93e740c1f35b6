import TypedQuery.Document.Execution
import TypedQuery.Proofs.Computation
import TypedQuery.Proofs.Entries

/-!
# Outcomes of mutation documents

What the fields of a mutation document compile to. Each field is prepared by itself and changes
nothing in the session, so the outcomes of a document are those of its fields under their response
names, of fields with one name the last one in the place of the first one.
-/

namespace TypedQuery

open Halting

/-- Fragments have been written out in a selection, at every depth. -/
inductive Selection.Written : Selection → Prop
  | field {name : String} {alias? : Option String} {arguments : List (String × Argument)}
      {selections : List Selection} {position : Position}
      (hselections : ∀ inner ∈ selections, inner.Written) :
      Written (.field name alias? arguments selections position)

section Expansion

variable {fragment : String → Except CompileFault (List Selection)}

mutual

/-- A selection is written out to fields without spreads if fragments are. -/
theorem Selection.expand_written
    (hfragment : ∀ name, Returns (fragment name) fun expanded =>
      ∀ field ∈ expanded, field.Written) :
    (selection : Selection) →
      Returns (selection.expand fragment) fun expanded => ∀ field ∈ expanded, field.Written
  | .spread name _ => hfragment name
  | .field _ _ _ selections _ => by
    unfold Selection.expand
    refine .bind (expandSelections_written hfragment selections) fun inner hinner => .ok ?_
    intro field hfield
    cases List.mem_singleton.mp hfield
    exact .field hinner

/-- Selections are written out to fields without spreads if fragments are. -/
theorem expandSelections_written
    (hfragment : ∀ name, Returns (fragment name) fun expanded =>
      ∀ field ∈ expanded, field.Written) :
    (selections : List Selection) →
      Returns (expandSelections fragment selections) fun expanded =>
        ∀ field ∈ expanded, field.Written
  | [] => .ok nofun
  | selection :: rest => by
    unfold expandSelections
    refine .bind (selection.expand_written hfragment) fun first hfirst =>
      .bind (expandSelections_written hfragment rest) fun others hothers => .ok ?_
    intro field hfield
    exact (List.mem_append.mp hfield).elim (hfirst field) (hothers field)

end

mutual

/-- A selection in which fragments have been written out stands for itself. -/
theorem Selection.Written.expand :
    {selection : Selection} → selection.Written → selection.expand fragment = .ok [selection]
  | .field _ _ _ selections _, .field hselections => by
    unfold Selection.expand
    rw [expandSelections_of_written selections hselections]
    rfl

/-- Selections without spreads are written out as they are. -/
theorem expandSelections_of_written :
    (selections : List Selection) → (∀ selection ∈ selections, selection.Written) →
      expandSelections fragment selections = .ok selections
  | [], _ => rfl
  | first :: rest, hselections => by
    unfold expandSelections
    rw [(hselections first List.mem_cons_self).expand, expandSelections_of_written rest
      fun selection hmem => hselections selection (List.mem_cons_of_mem _ hmem)]
    rfl

end

end Expansion

/-- A fragment is written out to fields without spreads. -/
theorem Document.fragmentSelections_written (document : Document) (fuel : Nat)
    (active : List String) (name : String) :
    Returns (document.fragmentSelections fuel active name) fun expanded =>
      ∀ field ∈ expanded, field.Written := by
  induction fuel generalizing active name with
  | zero => exact .error _
  | succ fuel ih =>
    unfold fragmentSelections
    split
    · exact .error _
    · split
      · exact .error _
      · exact expandSelections_written (ih _) _

/-- In what a selection stands for, fragments have been written out. -/
theorem Document.expand_written (document : Document) (selection : Selection) :
    Returns (document.expand selection) fun expanded => ∀ field ∈ expanded, field.Written :=
  selection.expand_written (document.fragmentSelections_written _ _)

/-- What a field of a mutation document compiles to: a mutation that waits, or the failure to
prepare it. -/
def Selection.outcome (scope : Scope) (selection : Selection) : Outcome :=
  match selection with
  | .field name _ arguments selections _ =>
    match prepareMutation scope [selection.responseName] name arguments selections with
    | .ok pending => .mutation pending
    | .error failure => .failed failure
  | .spread name _ => .failed ⟨.unknownFragment name, [name]⟩

/-- The fields of a mutation document in their order, with fragments written out: under the
response name of each what it compiles to. A selection whose fragments cannot be written out is one
field that fails. -/
def Document.outcomes (document : Document) (scope : Scope) (selections : List Selection) :
    List (String × Outcome) :=
  selections.flatMap fun selection =>
    match document.expand selection with
    | .error fault => [(selection.responseName, .failed ⟨fault, [selection.responseName]⟩)]
    | .ok expanded => expanded.map fun field => (field.responseName, field.outcome scope)

section Compilation

variable (scope : Scope) (capture : Capture) (claims : Claims)

/-- A field of a mutation document is prepared and nothing else. -/
theorem compileTopField_mutation {field : Selection} (hfield : field.Written) :
    compileTopField scope capture claims .mutation field = pure (field.outcome scope) := by
  cases hfield with
  | field hselections =>
    rename_i name alias? arguments selections position
    unfold compileTopField Selection.outcome
    dsimp only
    generalize prepareMutation scope _ name arguments selections = prepared
    cases prepared with
    | ok pending => rfl
    | error failure => rfl

/-- The fields of a mutation are prepared one by one, under their names. -/
theorem compileTopFields_mutation {fields : List Selection}
    (hfields : ∀ field ∈ fields, field.Written) (outcomes : Entries Outcome) :
    compileTopFields scope capture claims .mutation fields outcomes =
      pure (Entries.extend outcomes
        (fields.map fun field => (field.responseName, field.outcome scope))) := by
  induction fields generalizing outcomes with
  | nil => rfl
  | cons field rest ih =>
    unfold compileTopFields
    rw [compileTopField_mutation scope capture claims (hfields field List.mem_cons_self), pure_bind,
      ih fun other hother => hfields other (List.mem_cons_of_mem _ hother)]
    rfl

/-- The outcomes of a mutation document are those of its fields under their names, and compiling
them changes nothing. -/
theorem compileSelections_mutation (document : Document) (selections : List Selection)
    (outcomes : Entries Outcome) :
    compileSelections document scope capture claims .mutation selections outcomes =
      pure (Entries.extend outcomes (document.outcomes scope selections)) := by
  induction selections generalizing outcomes with
  | nil => rfl
  | cons selection rest ih =>
    unfold compileSelections Document.outcomes
    rw [List.flatMap_cons, Entries.extend_append]
    cases hexpand : document.expand selection with
    | error fault => exact ih _
    | ok expanded =>
      dsimp only
      rw [compileTopFields_mutation scope capture claims
        (document.expand_written selection expanded hexpand), pure_bind]
      exact ih _

end Compilation

/-- A mutation operation compiles to what its fields are prepared to. -/
theorem Host.compileOperation_mutation {host : Host} {request : Request} {document : Document}
    {operation : Operation} {vars : Entries Value}
    (hoperation : document.operation request.operation? = .ok operation)
    (hkind : operation.kind = .mutation)
    (hvars : host.schema.bindVariables operation.vars request.vars = .ok vars) :
    host.compileOperation document request =
      pure ⟨.mutation, Entries.ofList (document.outcomes (host.scope vars) operation.selections),
        request.claims⟩ := by
  unfold Host.compileOperation
  simp only [hoperation, Halting.ofExcept, pure_bind, hvars, hkind, compileSelections_mutation]
  rfl

/-- A source text of a mutation document compiles to what its fields are prepared to. -/
theorem Host.compileDocument_mutation {host : Host} {source : String} {request : Request}
    {document : Document} {operation : Operation} {vars : Entries Value}
    (hread : Document.read source = .ok document)
    (hoperation : document.operation request.operation? = .ok operation)
    (hkind : operation.kind = .mutation)
    (hvars : host.schema.bindVariables operation.vars request.vars = .ok vars) :
    host.compileDocument source request =
      pure ⟨.mutation, Entries.ofList (document.outcomes (host.scope vars) operation.selections),
        request.claims⟩ := by
  unfold Host.compileDocument
  rw [hread]
  exact Host.compileOperation_mutation hoperation hkind hvars

end TypedQuery
