import TypedQuery.Proofs.Document.Printing
import TypedQuery.Proofs.Query.FieldByField

/-!
# Positions in documents

The positions of selections tell where they stand in the source text. Nothing that is compiled or
run depends on them: documents that are the same but for positions, such as one text with other
blanks, give the same envelope.
-/

namespace TypedQuery

open Halting

/-- Positions are left out from a list part by part. -/
theorem Selection.bareList_append (first rest : List Selection) :
    bareList (first ++ rest) = bareList first ++ bareList rest := by
  induction first with
  | nil => rfl
  | cons selection others ih => exact congrArg (selection.bare :: ·) ih

/-- The response name of a selection does not depend on its position. -/
@[simp] theorem Selection.responseName_bare (selection : Selection) :
    selection.bare.responseName = selection.responseName := by
  cases selection with
  | spread name position => rfl
  | field name alias? arguments selections position => rfl

/-! ### Expansion -/

section Expansion

variable {first second : String → Except CompileFault (List Selection)}

mutual

/-- Selections expand to the same, but for positions, if fragments do. -/
theorem Selection.expand_bare
    (hfragment : ∀ name, first name = (second name).map Selection.bareList) :
    (selection : Selection) →
      selection.bare.expand first = (selection.expand second).map Selection.bareList
  | .spread name _ => hfragment name
  | .field _ _ _ selections _ => by
    unfold Selection.bare Selection.expand
    rw [expandSelections_bare hfragment selections]
    cases expandSelections second selections with
    | error fault => rfl
    | ok inner => rfl

/-- Fragments are written out in selections without positions as in those with them. -/
theorem expandSelections_bare
    (hfragment : ∀ name, first name = (second name).map Selection.bareList) :
    (selections : List Selection) →
      expandSelections first (Selection.bareList selections) =
        (expandSelections second selections).map Selection.bareList
  | [] => rfl
  | selection :: rest => by
    unfold Selection.bareList expandSelections
    rw [selection.expand_bare hfragment, expandSelections_bare hfragment rest]
    cases selection.expand second with
    | error fault => rfl
    | ok expanded =>
      cases expandSelections second rest with
      | error fault => rfl
      | ok others => exact congrArg Except.ok (Selection.bareList_append expanded others).symm

end

end Expansion

namespace Document

variable (document : Document)

/-- A fragment is found under its name without positions too. -/
theorem fragment?_bare (name : String) :
    document.bare.fragment? name = (document.fragment? name).map Fragment.bare := by
  unfold fragment? bare
  rw [List.find?_map]
  rfl

/-- The selections of a fragment are written out without positions as with them. -/
theorem fragmentSelections_bare (fuel : Nat) (active : List String) (name : String) :
    document.bare.fragmentSelections fuel active name =
      (document.fragmentSelections fuel active name).map Selection.bareList := by
  induction fuel generalizing active name with
  | zero => rfl
  | succ fuel ih =>
    unfold fragmentSelections
    rw [fragment?_bare]
    split
    · rfl
    · cases document.fragment? name with
      | none => rfl
      | some fragment => exact expandSelections_bare (ih (name :: active)) fragment.selections

/-- A selection is written out without positions as with them. -/
theorem expand_bare (selection : Selection) :
    document.bare.expand selection.bare =
      (document.expand selection).map Selection.bareList := by
  have hfragments : document.bare.fragments.length = document.fragments.length :=
    List.length_map _
  unfold expand
  rw [hfragments]
  exact selection.expand_bare (document.fragmentSelections_bare _ _)

/-- The operation that is meant is the same without positions. -/
theorem operation_bare (name? : Option String) :
    document.bare.operation name? = (document.operation name?).map Operation.bare := by
  unfold operation bare
  cases name? with
  | none =>
    cases document.operations with
    | nil => rfl
    | cons operation rest => rfl
  | some name =>
    dsimp only
    rw [List.find?_map]
    cases hfind : document.operations.find? fun operation => operation.name? = some name with
    | none =>
      have hnone : (document.operations.find? ((fun operation : Operation =>
        decide (operation.name? = some name)) ∘ Operation.bare)) = none := hfind
      rw [hnone]
      rfl
    | some operation =>
      have hsome : (document.operations.find? ((fun operation : Operation =>
        decide (operation.name? = some name)) ∘ Operation.bare)) = some operation := hfind
      rw [hsome]
      rfl

end Document

/-! ### Compilation -/

/-- A mutation that waits, without the positions of its selections. -/
def PendingMutation.bare (pending : PendingMutation) : PendingMutation :=
  { pending with selections := Selection.bareList pending.selections }

/-- An outcome without positions. -/
def Outcome.bare : Outcome → Outcome
  | .mutation pending => .mutation pending.bare
  | .query compiled => .query compiled
  | .failed failure => .failed failure

/-- A compiled operation without positions. -/
def CompiledDocument.bare (compiled : CompiledDocument) : CompiledDocument :=
  { compiled with fields := Entries.mapValues Outcome.bare compiled.fields }

section Compilation

variable (scope : Scope) (capture : Capture) (claims : Claims)

mutual

/-- A selection compiles to the same without positions. -/
theorem Scope.compileSelection_bare (path : List String) (parent : Node) :
    (selection : Selection) →
      scope.compileSelection capture claims path parent selection.bare =
        scope.compileSelection capture claims path parent selection
  | .spread _ _ => rfl
  | .field name alias? arguments selections _ => by
    unfold Selection.bare Scope.compileSelection
    cases selections with
    | nil => rfl
    | cons first rest =>
      have hcolumns := fun path parameter =>
        Scope.compileColumns_bare path parameter (first :: rest) parameter []
      simp only [Selection.bareList] at hcolumns ⊢
      simp only [hcolumns]

/-- The columns of selections compile to the same without positions. -/
theorem Scope.compileColumns_bare (path : List String) (parent : Node) :
    (selections : List Selection) → (node : Node) → (columns : Entries Plan) →
      scope.compileColumns capture claims path parent (Selection.bareList selections) node
          columns =
        scope.compileColumns capture claims path parent selections node columns
  | [], _, _ => rfl
  | selection :: rest, node, columns => by
    unfold Selection.bareList Scope.compileColumns
    rw [Scope.compileSelection_bare path parent selection, Selection.responseName_bare]
    congr 1
    funext child
    exact Scope.compileColumns_bare path parent rest _ _

end

/-- A mutation is prepared without positions as with them. -/
theorem prepareMutation_bare (path : List String) (name : String)
    (arguments : List (String × Argument)) (selections : List Selection) :
    prepareMutation scope path name arguments (Selection.bareList selections) =
      (prepareMutation scope path name arguments selections).map PendingMutation.bare := by
  unfold prepareMutation
  cases scope.schema.mutation? name with
  | none => rfl
  | some mutation =>
    dsimp only
    cases argumentMembers scope.vars arguments with
    | error fault => rfl
    | ok values => rfl

/-- The outcome of a field of a query has no positions. -/
theorem compileTopField_bare_query (selection : Selection) :
    compileTopField scope capture claims .query selection.bare =
      Outcome.bare <$> compileTopField scope capture claims .query selection := by
  unfold compileTopField
  dsimp only
  rw [scope.compileSelection_bare, map_bind]
  congr 1
  funext result
  cases result with
  | ok node => rfl
  | error failure => rfl

/-- A field of a mutation document has the same outcome without positions. -/
theorem compileTopField_bare_mutation (selection : Selection) :
    compileTopField scope capture claims .mutation selection.bare =
      Outcome.bare <$> compileTopField scope capture claims .mutation selection := by
  cases selection with
  | spread name position => rfl
  | field name alias? arguments selections position =>
    unfold Selection.bare compileTopField
    dsimp only
    have hname := Selection.responseName_bare (.field name alias? arguments selections position)
    unfold Selection.bare at hname
    rw [hname, prepareMutation_bare]
    cases prepareMutation scope _ name arguments selections with
    | error failure => rfl
    | ok pending => rfl

/-- A field of a document has the same outcome without positions. -/
theorem compileTopField_bare (kind : OperationKind) (selection : Selection) :
    compileTopField scope capture claims kind selection.bare =
      Outcome.bare <$> compileTopField scope capture claims kind selection := by
  cases kind with
  | query => exact compileTopField_bare_query scope capture claims selection
  | mutation => exact compileTopField_bare_mutation scope capture claims selection

/-- The fields of a document have the same outcomes without positions. -/
theorem compileTopFields_bare (kind : OperationKind) (selections : List Selection)
    (outcomes : Entries Outcome) :
    compileTopFields scope capture claims kind (Selection.bareList selections)
        (outcomes.mapValues Outcome.bare) =
      Entries.mapValues Outcome.bare <$>
        compileTopFields scope capture claims kind selections outcomes := by
  induction selections generalizing outcomes with
  | nil => rfl
  | cons selection rest ih =>
    unfold Selection.bareList compileTopFields
    rw [compileTopField_bare, Selection.responseName_bare, map_bind, bind_map_left]
    congr 1
    funext outcome
    rw [← Entries.mapValues_insert]
    exact ih _

/-- A document compiles to the same outcomes without its positions, but for the positions in
these. -/
theorem compileSelections_bare (document : Document) (kind : OperationKind)
    (selections : List Selection) (outcomes : Entries Outcome) :
    compileSelections document.bare scope capture claims kind (Selection.bareList selections)
        (outcomes.mapValues Outcome.bare) =
      Entries.mapValues Outcome.bare <$>
        compileSelections document scope capture claims kind selections outcomes := by
  induction selections generalizing outcomes with
  | nil => rfl
  | cons selection rest ih =>
    unfold Selection.bareList compileSelections
    rw [document.expand_bare, Selection.responseName_bare]
    cases document.expand selection with
    | error fault =>
      dsimp only [Except.map]
      rw [← ih, Entries.mapValues_insert]
      rfl
    | ok expanded =>
      dsimp only [Except.map]
      rw [compileTopFields_bare, map_bind, bind_map_left]
      congr 1
      funext outcomes
      exact ih outcomes

end Compilation

namespace Halting

variable {σ ε ε' α β : Type}

/-- Other words for the failures and what is made of the results do not meet. -/
theorem mapFault_map (f : α → β) (g : ε → ε') (run : Halting σ ε α) :
    (f <$> run).mapFault g = f <$> run.mapFault g := by
  funext state
  simp only [mapFault, EStateM.map, Functor.map]
  rcases run state with ⟨result, state⟩ | ⟨⟨cause⟩ | _, state⟩
  · rfl
  · rfl
  · rfl

/-- What is made of the results can be made of the result of an attempt. -/
theorem attempt_map (f : α → β) (run : Halting σ ε α) :
    ((f <$> run).attempt : Halting σ ε' (Except ε β)) = Except.map f <$> run.attempt := by
  funext state
  simp only [attempt, EStateM.map, Functor.map]
  rcases run state with ⟨result, state⟩ | ⟨⟨cause⟩ | _, state⟩
  · rfl
  · rfl
  · rfl

end Halting

/-- What is made of the results of a compilation can be made when it is run in the world. -/
theorem Execution.ofRun_map {ε α β : Type} (f : α → β) (run : Run ε α) :
    Execution.ofRun (f <$> run) = f <$> Execution.ofRun run := by
  funext world
  simp only [Execution.ofRun, EStateM.map, Functor.map]
  cases run ⟨0, world.register⟩ with
  | ok result session => rfl
  | error halt session => rfl

/-- The operation that is meant compiles to the same without positions. -/
theorem Host.compileOperation_bare (host : Host) (document : Document) (request : Request) :
    host.compileOperation document.bare request =
      CompiledDocument.bare <$> host.compileOperation document request := by
  unfold Host.compileOperation
  rw [document.operation_bare, map_bind]
  cases document.operation request.operation? with
  | error fault => rfl
  | ok operation =>
    simp only [Except.map, Halting.ofExcept, pure_bind, map_bind]
    congr 1
    funext vars
    have hfields := compileSelections_bare (host.scope vars) .parameter request.claims document
      operation.kind operation.selections []
    unfold Operation.bare
    dsimp only
    change compileSelections document.bare _ _ _ _ _ [] = _ at hfields
    rw [hfields, mapFault_map, bind_map_left]
    rfl

/-! ### Execution -/

section Execution

variable (host : Host) (services : Services) (claims : Claims)

/-- A result is shaped by selections without positions as by those with them. -/
theorem Scope.shape_bare (scope : Scope) (path : List String) (node : Node)
    (selections : List Selection) :
    scope.shape claims path node (Selection.bareList selections) =
      scope.shape claims path node selections := by
  cases selections with
  | nil => rfl
  | cons first rest =>
    have hselect : scope.select claims path node (Selection.bareList (first :: rest)) =
        scope.select claims path node (first :: rest) := by
      unfold Scope.select
      simp only [Scope.compileColumns_bare]
    unfold Scope.shape
    rw [hselect]
    rfl

/-- A mutation that waits runs without positions as with them. -/
theorem PendingMutation.run_bare (pending : PendingMutation) :
    pending.bare.run host services claims = pending.run host services claims := by
  have hquery : pending.bare.resultQuery host claims = pending.resultQuery host claims := by
    funext result
    cases result with
    | value value ty =>
      unfold PendingMutation.resultQuery
      exact congrArg (· >>= _) (Scope.shape_bare ..)
    | requery expression vars =>
      unfold PendingMutation.resultQuery
      dsimp only [PendingMutation.bare]
      simp only [Scope.shape_bare]
  unfold PendingMutation.run
  rw [hquery]
  rfl

/-- An outcome runs without positions as with them. -/
theorem Outcome.run_bare (outcome : Outcome) :
    outcome.bare.run host services claims = outcome.run host services claims := by
  cases outcome with
  | query compiled => rfl
  | mutation pending =>
    funext context name
    exact pending.run_bare host services claims
  | failed failure => rfl

/-- Outcomes run one after another without positions as with them. -/
theorem runOutcomes_bare (context : Value) (outcomes : Entries Outcome) :
    runOutcomes host services claims context (outcomes.mapValues Outcome.bare) =
      runOutcomes host services claims context outcomes := by
  induction outcomes with
  | nil => rfl
  | cons entry rest ih =>
    unfold Entries.mapValues at ih ⊢
    unfold runOutcomes
    rw [List.map_cons]
    dsimp only
    rw [Outcome.run_bare, ih]

/-- A compiled document runs without positions as with them. -/
theorem Host.execute_bare (compiled : CompiledDocument) :
    host.execute services compiled.bare = host.execute services compiled := by
  unfold Host.execute CompiledDocument.bare
  dsimp only
  simp only [runOutcomes_bare]

/-- A document runs as it does without its positions. -/
theorem Host.runDocument_bare (document : Document) (request : Request) :
    host.runDocument services document.bare request =
      host.runDocument services document request := by
  unfold Host.runDocument
  rw [host.compileOperation_bare, Execution.ofRun_map, attempt_map, bind_map_left]
  congr 1
  funext result
  cases result with
  | error fault => rfl
  | ok compiled => exact host.execute_bare services compiled

end Execution

/-! ### Documents that are the same for a request -/

/-- Two documents are the same for an operation that is meant, but for positions: the operation is
the same, and so are the fragments. -/
def Document.SameFor (name? : Option String) (first second : Document) : Prop :=
  (first.operation name?).map Operation.bare = (second.operation name?).map Operation.bare ∧
    first.fragments.map Fragment.bare = second.fragments.map Fragment.bare

section Sameness

variable {first second : Document}

/-- The selections of fragments depend on the fragments of a document alone. -/
theorem Document.fragmentSelections_congr (h : first.fragments = second.fragments) (fuel : Nat) :
    first.fragmentSelections fuel = second.fragmentSelections fuel := by
  induction fuel with
  | zero => rfl
  | succ fuel ih =>
    funext active name
    unfold fragmentSelections fragment?
    rw [ih, h]

/-- Writing out fragments depends on the fragments of a document alone. -/
theorem Document.expand_congr (h : first.fragments = second.fragments) :
    first.expand = second.expand := by
  funext selection
  unfold expand
  rw [fragmentSelections_congr h, h]

/-- What selections compile to depends on the fragments of a document alone. -/
theorem compileSelections_congr (h : first.fragments = second.fragments) :
    compileSelections first = compileSelections second := by
  funext scope capture claims kind selections outcomes
  induction selections generalizing outcomes with
  | nil => rfl
  | cons selection rest ih =>
    unfold compileSelections
    rw [Document.expand_congr h]
    cases second.expand selection with
    | error fault => exact ih _
    | ok expanded =>
      dsimp only
      congr 1
      funext outcomes
      exact ih outcomes

/-- Documents that are the same for a request run alike. -/
theorem Host.runDocument_of_sameFor {host : Host} {services : Services} {request : Request}
    (h : first.SameFor request.operation? second) :
    host.runDocument services first request = host.runDocument services second request := by
  obtain ⟨hoperation, hfragments⟩ := h
  rw [← Document.operation_bare, ← Document.operation_bare] at hoperation
  have hselections : compileSelections first.bare = compileSelections second.bare :=
    compileSelections_congr hfragments
  have hcompile : host.compileOperation first.bare request =
      host.compileOperation second.bare request := by
    unfold Host.compileOperation
    rw [hoperation, hselections]
  rw [← host.runDocument_bare services first, ← host.runDocument_bare services second]
  unfold Host.runDocument
  rw [hcompile]

end Sameness

end TypedQuery
