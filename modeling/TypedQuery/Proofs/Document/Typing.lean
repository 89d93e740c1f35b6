import TypedQuery.Document.Compiled
import TypedQuery.Proofs.Compile.Typing

/-!
# Documents compile to well-typed plans

A selection on a good parent compiles to a sound node: its field, the sequence arguments that
are applied to it, and the record that its selection set makes of each value. The queries of a
compiled operation are therefore well typed, with the context of the host as their only free
parameter besides variables.
-/

namespace TypedQuery

open Halting

/-- The sequence arguments among the values of arguments mention readable names. -/
def Assumptions.ReadsSequence (A : Assumptions) (values : List (String × Value)) : Prop :=
  ∀ name source, (name, Value.text source) ∈ values → name ∈ SequenceArguments.names →
    A.Reads source

mutual

/-- The sequence arguments of a selection and of the selections inside of it mention readable
names. -/
def Selection.Reads (A : Assumptions) (vars : Entries Value) : Selection → Prop
  | .field _ _ arguments selections _ =>
    (∀ values, argumentMembers vars arguments = .ok values → A.ReadsSequence values) ∧
      selectionsRead A vars selections
  | .spread _ _ => True

/-- The same for a list of selections. -/
def selectionsRead (A : Assumptions) (vars : Entries Value) : List Selection → Prop
  | [] => True
  | selection :: rest => selection.Reads A vars ∧ selectionsRead A vars rest

end

/-- The fields that a caller may select keep what is assumed of the world, and so do the values
that are bound to their arguments. -/
structure Schema.Grants (A : Assumptions) (schema : Schema) (claims : Claims) : Prop where
  admitted : ∀ type name field, schema.field? type name = some field →
    Schema.authorize (type ++ "." ++ name) field.requirement? claims = .ok () →
    field.Admitted A type
  bound : ∀ type name field supplied bound, schema.field? type name = some field →
    schema.bindArguments name field.arguments supplied = .ok bound →
    ∀ entry ∈ bound, A.known entry.1 entry.2

namespace Scope

variable {A : Assumptions} {Γ : Typing} {scope : Scope} {claims : Claims}
variable {parent node caller : Node}

/-- The expression that a sequence argument stands for mentions readable names. -/
theorem sequenceCall_reads {name method : String} {value : Value} {expr : Expr}
    (hname : name ∈ SequenceArguments.names) (hreads : A.ReadsSequence [(name, value)])
    (h : sequenceCall name value = .ok (method, expr)) :
    ∀ other ∈ expr.names, A.readable other := by
  unfold sequenceCall at h
  split at h
  · split at h
    · split at h <;> cases h
      exact fun _ h => absurd h List.not_mem_nil
    · cases h
  · split at h
    · rename_i source htext
      have hvalue : value = .text source := by
        cases value with
        | text s =>
          cases htext
          rfl
        | _ => cases htext
      split at h
      · rename_i read hread
        cases h
        exact hreads name source (by rw [hvalue]; exact List.mem_singleton.mpr rfl) hname _ hread
      · cases h
    · cases h

/-- Sequence arguments keep a node good. -/
theorem applySequence_ensures (hscope : scope.Sound A) (hcaller : caller.Good A Γ)
    {arguments : List (String × Value)} (hreads : A.ReadsSequence arguments) {names : List String}
    (hnames : ∀ name ∈ names, name ∈ SequenceArguments.names) (hnode : node.Good A Γ) :
    Ensures (scope.applySequence .parameter arguments caller names node) fun node =>
      node.Good A Γ := by
  induction names generalizing node with
  | nil =>
    unfold applySequence
    exact .pure hnode
  | cons name rest ih =>
    have hrest := fun other h => hnames other (List.mem_cons_of_mem name h)
    unfold applySequence
    split
    · exact ih hrest hnode
    · exact ih hrest hnode
    · rename_i value _ hlookup
      refine .check fun ⟨method, expr⟩ hcall => ?_
      have hvalue : A.ReadsSequence [(name, value)] := by
        intro other source hmem
        obtain ⟨rfl, rfl⟩ := Prod.mk.inj (List.mem_singleton.mp hmem)
        exact hreads other source (List.mem_reverse.mp (Entries.mem_of_find? hlookup))
      have hexpr := sequenceCall_reads (hnames name List.mem_cons_self) hvalue hcall
      refine .bind (MethodLibrary.call_ensures hscope.methods hnode hcaller
        (callArguments_good hscope (sound_fieldCompiler hscope) [expr] ?_)) fun next hnext =>
          ih hrest hnext
      intro other hother
      exact hexpr other ((List.mem_append.mp hother).resolve_right List.not_mem_nil)

/-- A field of an object on a good parent compiles to a good node. -/
theorem compileObjectField_ensures (hscope : scope.Sound A) (hgrants : scope.schema.Grants A claims)
    (hparent : parent.Good A Γ) {type name : String} (htype : parent.ty.underlying = .object type)
    {arguments : List (String × Argument)}
    (hreads : ∀ values, argumentMembers scope.vars arguments = .ok values →
      A.ReadsSequence values) :
    Ensures (scope.compileObjectField .parameter claims parent type name arguments) fun node =>
      node.Good A Γ := by
  unfold compileObjectField
  split
  · exact .fail _
  · rename_i field hfield
    refine .check fun _ hauthorized => .check fun values hvalues => .check fun bound hbound => ?_
    refine .bind (sound_fieldCompiler hscope Γ parent type field bound hparent htype
      (hgrants.admitted type name field hfield hauthorized)
      (hgrants.bound type name field _ bound hfield hbound)) fun node hnode => ?_
    refine applySequence_ensures hscope hparent ?_ (fun _ h => h) hnode
    exact fun other source hmem => hreads values hvalues other source (List.mem_of_mem_filter hmem)

/-- A field of a document without its selections is a good node. -/
theorem compileBareField_ensures (hscope : scope.Sound A) (hgrants : scope.schema.Grants A claims)
    (hparent : parent.Good A Γ) {name : String} {arguments : List (String × Argument)}
    (hreads : ∀ values, argumentMembers scope.vars arguments = .ok values →
      A.ReadsSequence values) :
    Ensures (scope.compileBareField .parameter claims parent name arguments) fun node =>
      node.Good A Γ := by
  have hfinish : ∀ node : Node, node.Good A Γ →
      Ensures (do Halting.ofExcept (scope.schema.authorizeTy claims node.ty); return node :
        Compile Node) fun node => node.Good A Γ := fun node hnode => .check fun _ _ => .pure hnode
  unfold compileBareField
  split
  · rename_i type htype
    exact .bind (compileObjectField_ensures hscope hgrants hparent htype hreads) hfinish
  · rename_i hobject
    split
    · refine .bind (resolve_ensures hscope.schema (sound_fieldCompiler hscope) hparent ?_) hfinish
      exact fun type htype => absurd htype (hobject type)
    · exact .bind (.fail _) hfinish

/-- The values of a source, or its items, have the type from which a selection set selects. -/
theorem selectedTy_fits {source item : Ty} {overItems : Bool}
    (h : selectedTy source = .ok (item, overItems)) (body : Ty) :
    if overItems then Binder.project.Fits source item body (.list body)
    else Binder.given.Fits source item body body.orNull := by
  unfold selectedTy at h
  split at h
  · cases h
    exact ⟨rfl, rfl⟩
  · split at h <;> cases h
    exact ⟨rfl, rfl⟩

/-- A selection set on a sound source is sound if its record is. -/
theorem selectOn_ensures {source : Node} {path : List String}
    {build : Node → Run FieldFailure Node} (hsource : source.Sound A Γ)
    (hbuild : ∀ (name : String) (ty : Ty), (Node.ofPlan (.param ty name)).Good A (.only name ty) →
      Ensures (build (.ofPlan (.param ty name))) fun node => node.Sound A (.only name ty)) :
    Ensures (selectOn source path build) fun node => node.Sound A Γ := by
  refine .check fun ⟨item, overItems⟩ hselected => ?_
  refine .bind Run.freshName_ensures fun name hname => ?_
  obtain ⟨n, rfl⟩ := hname
  refine .bind (hbuild _ item ⟨⟨fun _ h => absurd h List.not_mem_nil, .param (Or.inl ⟨rfl, rfl⟩)⟩,
    rfl⟩) fun record hrecord => .pure (hsource.join hrecord ?_)
  have hfits := selectedTy_fits (eq_ok_of_mapError hselected) record.plan.ty
  cases overItems with
  | true =>
    exact .bind (hsource.typed.extend (Node.join_extends_left _ _ _))
      (hrecord.typed.body (Node.join_extends_right _ _ _) (constantName_ne_fresh n)) hfits
  | false =>
    exact .bind (hsource.typed.extend (Node.join_extends_left _ _ _))
      (hrecord.typed.body (Node.join_extends_right _ _ _) (constantName_ne_fresh n)) hfits

/-- The columns of a record under construction: well typed with the node that collects their
captures, and with no response name repeated. -/
structure ColumnsSound (A : Assumptions) (Γ : Typing) (node : Node) (columns : Entries Plan) :
    Prop where
  known : ∀ entry ∈ node.constants, A.known entry.1 entry.2
  names : (Entries.names columns).Nodup
  typed : ∀ column ∈ columns, node.Types A Γ column.2

/-- Sound columns stay so with a further one. -/
theorem ColumnsSound.insert {child : Node} {columns : Entries Plan} {name : String}
    (h : ColumnsSound A Γ node columns) (hchild : child.Sound A Γ) :
    ColumnsSound A Γ (node.join child node.plan) (Entries.insert columns name child.plan) where
  known := Node.known_join h.known hchild.known
  names := Entries.nodup_names_insert h.names
  typed := by
    intro column hcolumn
    rcases Entries.mem_of_mem_insert hcolumn with rfl | hold
    · exact hchild.typed.extend (Node.join_extends_right _ _ _)
    · exact (h.typed column hold).extend (Node.join_extends_left _ _ _)

/-- The record of sound columns is sound. -/
theorem columnsNode_ensures {columns : Entries Plan} (h : ColumnsSound A Γ node columns) :
    Ensures (columnsNode node columns) fun node => node.Sound A Γ := by
  refine .bind (Run.recordType_ensures _) fun signature hsignature => .pure ⟨h.known, ?_⟩
  have hnames : Entries.names (columns.map fun column => (column.1, column.2.ty)) =
      Entries.names columns := by
    simp [Entries.names, Function.comp_def]
  rw [Entries.ofList_of_nodup (hnames ▸ h.names)] at hsignature
  subst hsignature
  refine .record ?_ ?_
  · intro plan hplan
    obtain ⟨column, hcolumn, rfl⟩ := List.mem_map.mp hplan
    exact h.typed column hcolumn
  · simp [Entries.values]

mutual

/-- A selection on a good parent compiles to a sound node. -/
theorem compileSelection_ensures (hscope : scope.Sound A)
    (hgrants : scope.schema.Grants A claims) {Γ : Typing} {parent : Node}
    (hparent : parent.Good A Γ) (path : List String) :
    (selection : Selection) → selection.Reads A scope.vars →
      Ensures (scope.compileSelection .parameter claims path parent selection) fun node =>
        node.Sound A Γ
  | .spread fragment _, _ => by
    unfold compileSelection
    exact .fail _
  | .field name alias? arguments selections _, hreads => by
    unfold compileSelection
    refine .bind (Ensures.mapFault (compileBareField_ensures hscope hgrants hparent hreads.1))
      fun node hnode => ?_
    match selections, hreads with
    | [], _ => exact .pure hnode.toSound
    | first :: rest, hreads =>
      refine selectOn_ensures hnode.toSound fun name ty hparameter => ?_
      refine .bind (compileColumns_ensures hscope hgrants hparameter _ (first :: rest) hreads.2
        ⟨hparameter.known, List.nodup_nil, fun _ h => absurd h List.not_mem_nil⟩)
        fun ⟨record, columns⟩ hcolumns => columnsNode_ensures hcolumns

/-- Selections on a good parent keep columns sound. -/
theorem compileColumns_ensures (hscope : scope.Sound A) (hgrants : scope.schema.Grants A claims)
    {Γ : Typing} {parent : Node} (hparent : parent.Good A Γ) (path : List String) :
    (selections : List Selection) → selectionsRead A scope.vars selections →
      ∀ {node : Node} {columns : Entries Plan}, ColumnsSound A Γ node columns →
        Ensures (scope.compileColumns .parameter claims path parent selections node columns)
          fun result => ColumnsSound A Γ result.1 result.2
  | [], _, node, columns, hcolumns => by
    unfold compileColumns
    exact .pure hcolumns
  | selection :: rest, hreads, node, columns, hcolumns => by
    unfold compileColumns
    refine .bind (compileSelection_ensures hscope hgrants hparent path selection hreads.1)
      fun child hchild => ?_
    exact compileColumns_ensures hscope hgrants hparent path rest hreads.2 (hcolumns.insert hchild)

end

end Scope

/-- The query of a sound node in a context of a type. -/
def Query.Sound (A : Assumptions) (contextTy : Ty) (query : Query) : Prop :=
  ∃ node : Node, node.Sound A (.only contextName contextTy) ∧ query = .ofNode node contextTy

/-- An outcome that is a query is the query of a sound node. -/
def Outcome.Sound (A : Assumptions) (contextTy : Ty) (outcome : Outcome) : Prop :=
  ∀ query, outcome = .query query → query.Sound A contextTy

variable {A : Assumptions} {scope : Scope} {claims : Claims} {outcomes : Entries Outcome}
variable {kind : OperationKind} {host : Host} {document : Document} {request : Request}

/-- A source text that mentions readable names compiles to the query of a sound node. -/
theorem Query.compile_ensures (hscope : scope.Sound A) {contextTy : Ty} {source : String}
    (hsource : A.Reads source) :
    Ensures (Query.compile scope contextTy source) fun query => query.Sound A contextTy :=
  .bind (Scope.compileSource_ensures hscope (Scope.good_context contextTy) hsource)
    fun node hnode => .pure ⟨node, hnode.toSound, rfl⟩

/-- A field of a document has a sound outcome. -/
theorem compileTopField_ensures (hscope : scope.Sound A) (hgrants : scope.schema.Grants A claims)
    {selection : Selection} (hreads : selection.Reads A scope.vars) :
    Ensures (compileTopField scope .parameter claims kind selection) fun outcome =>
      outcome.Sound A scope.schema.contextTy := by
  unfold compileTopField
  split
  · split
    · exact .pure nofun
    · exact .pure nofun
  · refine .bind (.attempt (Scope.compileSelection_ensures hscope hgrants
      (Scope.good_context scope.schema.contextTy) [] selection hreads)) fun outcome houtcome => ?_
    cases outcome with
    | ok node =>
      refine .pure fun query hquery => ?_
      cases hquery
      exact ⟨node, houtcome node rfl, rfl⟩
    | error failure => exact .pure nofun

/-- What holds of the outcomes of fields holds of all outcomes. -/
theorem compileTopFields_ensures {P : Outcome → Prop} {selections : List Selection}
    (hfield : ∀ selection ∈ selections,
      Ensures (compileTopField scope .parameter claims kind selection) P)
    (houtcomes : ∀ entry ∈ outcomes, P entry.2) :
    Ensures (compileTopFields scope .parameter claims kind selections outcomes) fun outcomes =>
      ∀ entry ∈ outcomes, P entry.2 := by
  induction selections generalizing outcomes with
  | nil =>
    unfold compileTopFields
    exact .pure houtcomes
  | cons selection rest ih =>
    unfold compileTopFields
    refine .bind (hfield _ List.mem_cons_self)
      fun outcome houtcome => ih (fun other h => hfield other (List.mem_cons_of_mem _ h)) ?_
    intro entry hentry
    rcases Entries.mem_of_mem_insert hentry with rfl | hold
    · exact houtcome
    · exact houtcomes entry hold

/-- What holds of failures and of the outcomes of written-out fields holds of all outcomes. -/
theorem compileSelections_ensures {P : Outcome → Prop} (hfailed : ∀ failure, P (.failed failure))
    {selections : List Selection}
    (hfield : ∀ selection ∈ selections, ∀ expanded, document.expand selection = .ok expanded →
      ∀ other ∈ expanded, Ensures (compileTopField scope .parameter claims kind other) P)
    (houtcomes : ∀ entry ∈ outcomes, P entry.2) :
    Ensures (compileSelections document scope .parameter claims kind selections outcomes)
      fun outcomes => ∀ entry ∈ outcomes, P entry.2 := by
  induction selections generalizing outcomes with
  | nil =>
    unfold compileSelections
    exact .pure houtcomes
  | cons selection rest ih =>
    have hrest := fun other h => hfield other (List.mem_cons_of_mem selection h)
    unfold compileSelections
    split
    · refine ih hrest fun entry hentry => ?_
      rcases Entries.mem_of_mem_insert hentry with rfl | hold
      · exact hfailed _
      · exact houtcomes entry hold
    · rename_i expanded hexpanded
      exact .bind (compileTopFields_ensures (hfield selection List.mem_cons_self expanded hexpanded)
        houtcomes) fun outcomes houtcomes => ih hrest houtcomes

/-- What holds of the outcomes of an operation's fields holds of what it compiles to. -/
theorem Host.compileOperation_ensures {P : OperationKind → Outcome → Prop}
    (hfailed : ∀ kind failure, P kind (.failed failure))
    (hfield : ∀ operation vars, document.operation request.operation? = .ok operation →
      host.schema.bindVariables operation.vars request.vars = .ok vars →
      ∀ selection ∈ operation.selections, ∀ expanded, document.expand selection = .ok expanded →
      ∀ other ∈ expanded, Ensures (compileTopField (host.scope vars) .parameter request.claims
        operation.kind other) (P operation.kind)) :
    Ensures (host.compileOperation document request) fun compiled =>
      ∀ entry ∈ compiled.fields, P compiled.kind entry.2 := by
  unfold compileOperation
  refine .check fun operation hoperation => .check fun vars hvars => ?_
  refine .bind (Ensures.mapFault (compileSelections_ensures (hfailed operation.kind)
    (hfield operation vars hoperation hvars) fun _ h => absurd h List.not_mem_nil))
    fun fields hfields => .pure hfields

/-- The selections of an operation, with its fragments written out, mention readable names. -/
def Document.Reads (A : Assumptions) (vars : Entries Value) (document : Document)
    (selections : List Selection) : Prop :=
  ∀ selection ∈ selections, ∀ expanded, document.expand selection = .ok expanded →
    ∀ other ∈ expanded, other.Reads A vars

/-- The queries of a compiled operation are those of sound nodes in the context of the host. -/
theorem Host.compileOperation_sound {operation : Operation} {vars : Entries Value}
    (hoperation : document.operation request.operation? = .ok operation)
    (hvars : host.schema.bindVariables operation.vars request.vars = .ok vars)
    (hscope : (host.scope vars).Sound A) (hgrants : host.schema.Grants A request.claims)
    (hreads : document.Reads A vars operation.selections) :
    Ensures (host.compileOperation document request) fun compiled =>
      ∀ entry ∈ compiled.fields, entry.2.Sound A host.schema.contextTy := by
  refine compileOperation_ensures (P := fun _ outcome => outcome.Sound A host.schema.contextTy)
    (fun _ _ => nofun) fun found bound hfound hbound => ?_
  cases hoperation.symm.trans hfound
  cases hvars.symm.trans hbound
  intro selection hselection expanded hexpanded other hother
  exact compileTopField_ensures hscope hgrants
    (hreads selection hselection expanded hexpanded other hother)

end TypedQuery
