import TypedQuery.Document.Compiled
import TypedQuery.Proofs.Lockstep.Calls

/-!
# Compiling in lockstep

Expressions, fields and documents compile on nodes that are alike, and with captures that give
nodes that are alike, in the same way. Both compilations stop for the same reason, or give nodes
that are alike again.
-/

namespace TypedQuery

open Halting

/-- Two compilations of fields go on in lockstep. -/
def FieldCompiler.Alike (L : Likeness) (fields fields' : FieldCompiler) : Prop :=
  ∀ (parent parent' : Node) (field : FieldDefinition) (bound : Entries Value),
    parent.Alike L parent' →
    Halting.Lockstep L.sessions (Node.Alike L) (fields parent field bound)
      (fields' parent' field bound)

/-- A conditional of nodes that are alike. -/
theorem Node.Alike.conditional {L : Likeness} {t t' y y' n n' : Node} {condition condition' : Plan}
    (ht : t.Alike L t') (hy : y.Alike L y') (hn : n.Alike L n')
    (hcondition : condition.Alike L (Entries.names t'.constants) condition') :
    ((t.join y condition).join n (.cond (y.plan.unifyBranches n.plan).2.2 condition
        (y.plan.unifyBranches n.plan).1 (y.plan.unifyBranches n.plan).2.1)).Alike L
      ((t'.join y' condition').join n' (.cond (y'.plan.unifyBranches n'.plan).2.2 condition'
        (y'.plan.unifyBranches n'.plan).1 (y'.plan.unifyBranches n'.plan).2.1)) := by
  have hty : (t.join y condition).Alike L (t'.join y' condition') :=
    ht.join hy (hcondition.mono fun _ h => Entries.mem_names_extend.mpr (Or.inl h))
  have hyes := (hy.plan_right t').mono (Node.join_extends_left (t'.join y' condition') n'
    condition').constants
  obtain ⟨hfirst, hsecond, htypes⟩ := hyes.unifyBranches (hn.plan_right (t'.join y' condition'))
  rw [htypes]
  exact hty.join hn (.cond (hty.plan_left n') hfirst hsecond)

/-- Two captures give nodes that are alike. -/
def Capture.Alike (L : Likeness) (capture capture' : Capture) : Prop :=
  ∀ (name : String) (value : Value), (capture name value).Alike L (capture' name value)

namespace Scope

variable {L : Likeness} {scope : Scope} {fields fields' : FieldCompiler}
  {parent parent' node exact : Node} {capture capture' : Capture}

/-- Variables compile to alike nodes if the captures are alike. -/
theorem variableNode_lockstep (hcapture : capture.Alike L capture') (name : String) :
    Halting.Lockstep L.sessions (Node.Alike L) (scope.variableNode capture name)
      (scope.variableNode capture' name) := by
  unfold variableNode
  split
  · exact .fail _
  · exact .pure (hcapture _ _)

/-- Literals compile to the same node. -/
theorem alike_literal (value : Literal) : value.node.Alike L value.node := by
  refine ⟨?_, rfl, rfl⟩
  cases value with
  | integer n =>
    unfold Literal.node
    dsimp only
    split
    · exact .const
    · exact .const
  | decimal _ | text _ | boolean _ | null => exact .const

/-- Names on alike parents compile to alike nodes. -/
theorem resolve_lockstep (hfields : fields.Alike L fields') (hparent : parent.Alike L parent')
    (name : String) :
    Halting.Lockstep L.sessions (Node.Alike L) (scope.resolve fields parent name)
      (scope.resolve fields' parent' name) := by
  unfold resolve
  rw [hparent.ty_eq]
  split
  · split
    · exact .fail _
    · exact .check fun bound => hfields _ _ _ bound hparent
  · split
    · exact .pure (hparent.map (.unary hparent.plan))
    · exact .fail _
  · exact .pure (hparent.map (.unary hparent.plan))
  · exact .fail _

mutual

/-- An expression compiles in lockstep in contexts that are alike. -/
theorem compileExpr_lockstep (hcapture : capture.Alike L capture')
    (hmethods : scope.methods.Uniform L) (hfields : fields.Alike L fields')
    {context context' : Node} (hcontext : context.Alike L context') :
    (expr : Expr) →
      Halting.Lockstep L.sessions (Node.Alike L) (scope.compileExpr capture fields context expr)
        (scope.compileExpr capture' fields' context' expr)
  | .literal value => by
    unfold compileExpr
    exact .pure (alike_literal value)
  | .var name => by
    unfold compileExpr
    exact variableNode_lockstep hcapture name
  | .identifier name => by
    unfold compileExpr
    exact resolve_lockstep hfields hcontext name
  | .access object name => by
    unfold compileExpr
    exact .bind (compileExpr_lockstep hcapture hmethods hfields hcontext object) fun _ _ hparent =>
      resolve_lockstep hfields hparent name
  | .invoke method arguments => by
    unfold compileExpr
    exact MethodLibrary.call_lockstep hmethods hcontext hcontext
      (callArguments_lockstep hcapture hmethods hfields arguments)
  | .call receiver method arguments => by
    unfold compileExpr
    exact .bind (compileExpr_lockstep hcapture hmethods hfields hcontext receiver)
      fun _ _ hreceiver => MethodLibrary.call_lockstep hmethods hreceiver hcontext
        (callArguments_lockstep hcapture hmethods hfields arguments)
  | .binary op left right => by
    unfold compileExpr
    refine .bind (compileExpr_lockstep hcapture hmethods hfields hcontext left) fun l l' hl => ?_
    refine .bind (compileExpr_lockstep hcapture hmethods hfields hcontext right) fun r r' hr => ?_
    refine .bind (.ofExcept ((hl.plan_left r').reconcile (hr.plan_right l') scope.schema op))
      fun _ _ hplan => .pure (hl.join hr hplan)
  | .conditional test testText yes no => by
    unfold compileExpr
    refine .bind (compileExpr_lockstep hcapture hmethods hfields hcontext test) fun t t' ht => ?_
    have hcondition := ht.plan.asPredicate?
    rw [ht.ty_eq]
    generalize t.plan.asPredicate? = condition?, t'.plan.asPredicate? = other? at hcondition ⊢
    cases hcondition with
    | none => exact .fail _
    | some hcondition =>
      refine .bind (compileExpr_lockstep hcapture hmethods hfields hcontext yes) fun y y' hy => ?_
      refine .bind (compileExpr_lockstep hcapture hmethods hfields hcontext no) fun n n' hn => ?_
      exact .pure (ht.conditional hy hn hcondition)

/-- The arguments of a call compile in lockstep. -/
theorem callArguments_lockstep (hcapture : capture.Alike L capture')
    (hmethods : scope.methods.Uniform L)
    (hfields : fields.Alike L fields') :
    (arguments : List Expr) →
      List.Forall₂ (CallArgument.Alike L) (scope.callArguments capture fields arguments)
        (scope.callArguments capture' fields' arguments)
  | [] => by
    unfold callArguments
    exact .nil
  | expr :: rest => by
    unfold callArguments
    exact .cons ⟨rfl, fun _ _ hcontext =>
      compileExpr_lockstep hcapture hmethods hfields hcontext expr⟩
        (callArguments_lockstep hcapture hmethods hfields rest)

end

/-- A source text on alike parents compiles to alike nodes. -/
theorem compileText_lockstep (hcapture : capture.Alike L capture')
    (hmethods : scope.methods.Uniform L) (hfields : fields.Alike L fields')
    (hparent : parent.Alike L parent') (source : String) :
    Halting.Lockstep L.sessions (Node.Alike L) (scope.compileText capture fields parent source)
      (scope.compileText capture' fields' parent' source) :=
  .check fun expr => compileExpr_lockstep hcapture hmethods hfields hparent expr

/-- The inputs of a service and the nodes that collect their variables. -/
theorem compileInputs_lockstep {compile compile' : String → Compile Node} {inputs : List String}
    (hcompile : ∀ source,
      Halting.Lockstep L.sessions (Node.Alike L) (compile source) (compile' source))
    (hparent : parent.Alike L parent') :
    Halting.Lockstep L.sessions (fun result result' => result.1.Alike L result'.1 ∧
        (∀ name ∈ Entries.names parent'.constants, name ∈ Entries.names result'.1.constants) ∧
        List.Forall₂ (Plan.Alike L (Entries.names result'.1.constants)) result.2 result'.2)
      (compileInputs compile parent inputs) (compileInputs compile' parent' inputs) := by
  induction inputs generalizing parent parent' with
  | nil => exact .pure ⟨hparent, fun _ h => h, .nil⟩
  | cons source rest ih =>
    unfold compileInputs
    refine .bind (hcompile source) fun input input' hinput => ?_
    refine .bind (ih (hparent.join hinput (hparent.plan_left input'))) ?_
    rintro ⟨node, plans⟩ ⟨node', plans'⟩ ⟨hnode, hkept, hplans⟩
    refine .pure ⟨hnode, fun name h => hkept name (Entries.mem_names_extend.mpr (Or.inl h)),
      .cons (hinput.plan.mono fun name h => ?_) hplans⟩
    exact hkept name (Entries.mem_names_extend.mpr (Or.inr h))

/-- A field compiles in lockstep on both parents if its sources do. -/
theorem compileResolver_lockstep {compile compile' : String → Compile Node}
    (hcompile : ∀ source,
      Halting.Lockstep L.sessions (Node.Alike L) (compile source) (compile' source))
    (hparent : parent.Alike L parent') (field : FieldDefinition) :
    Halting.Lockstep L.sessions (Node.Alike L) (compileResolver compile parent field)
      (compileResolver compile' parent' field) := by
  unfold compileResolver
  split
  · exact .pure (hparent.map (.unary hparent.plan))
  · exact hcompile _
  · refine .bind (compileInputs_lockstep hcompile hparent) ?_
    rintro ⟨node, plans⟩ ⟨node', plans'⟩ ⟨hnode, _, hplans⟩
    obtain ⟨pairs, rfl, rfl, hpairs⟩ := exists_pairs_of_forall₂ hplans
    exact .pure (Node.Alike.needService (hnode.map (.call hpairs)) _)

/-- Fields compile in lockstep at every depth, whatever variables their sources see. -/
theorem compileField_lockstep (hcapture : capture.Alike L capture') {schema : Schema}
    {methods : MethodLibrary} (hmethods : methods.Uniform L) (depth : Nat) : ∀ vars : Entries Value,
      (compileField capture schema methods depth vars).Alike L
        (compileField capture' schema methods depth vars) := by
  induction depth with
  | zero =>
    intro vars parent parent' field bound hparent
    exact compileResolver_lockstep (fun _ => .tooDeep) hparent field
  | succ depth ih =>
    intro vars parent parent' field bound hparent
    exact compileResolver_lockstep
      (fun source => compileText_lockstep hcapture hmethods (ih _) hparent source) hparent field

/-- The fields of the schema compile to alike nodes. -/
theorem fieldCompiler_lockstep (hcapture : capture.Alike L capture')
    (hmethods : scope.methods.Uniform L) :
    (scope.fieldCompiler capture).Alike L (scope.fieldCompiler capture') :=
  compileField_lockstep hcapture hmethods scope.depth scope.vars

/-- Sequence arguments are applied in lockstep. -/
theorem applySequence_lockstep (hcapture : capture.Alike L capture')
    (hmethods : scope.methods.Uniform L) {caller caller' : Node}
    (hcaller : caller.Alike L caller') (arguments : List (String × Value)) (names : List String)
    (hnode : node.Alike L exact) :
    Halting.Lockstep L.sessions (Node.Alike L)
      (scope.applySequence capture arguments caller names node)
      (scope.applySequence capture' arguments caller' names exact) := by
  induction names generalizing node exact with
  | nil => exact .pure hnode
  | cons name rest ih =>
    unfold applySequence
    split
    · exact ih hnode
    · exact ih hnode
    · refine .check fun ⟨method, expr⟩ => .bind (MethodLibrary.call_lockstep hmethods hnode hcaller
        (callArguments_lockstep hcapture hmethods
          (fieldCompiler_lockstep hcapture hmethods) [expr])) ?_
      exact fun next next' hnext => ih hnext

/-- Fields of objects with arguments compile to alike nodes. -/
theorem compileObjectField_lockstep (hcapture : capture.Alike L capture')
    (hmethods : scope.methods.Uniform L)
    (hparent : parent.Alike L parent') (claims : Claims) (type name : String)
    (arguments : List (String × Argument)) :
    Halting.Lockstep L.sessions (Node.Alike L)
      (scope.compileObjectField capture claims parent type name arguments)
      (scope.compileObjectField capture' claims parent' type name arguments) := by
  unfold compileObjectField
  rw [hparent.ty_eq]
  split
  · exact .fail _
  · refine .check fun _ => .check fun values => .check fun bound => ?_
    refine .bind (fieldCompiler_lockstep hcapture hmethods _ _ _ bound hparent)
      fun node exact hnode => ?_
    exact applySequence_lockstep hcapture hmethods hparent _ _ hnode

/-- Names without a type compile to alike nodes. -/
theorem compileBareField_lockstep (hcapture : capture.Alike L capture')
    (hmethods : scope.methods.Uniform L)
    (hparent : parent.Alike L parent') (claims : Claims) (name : String)
    (arguments : List (String × Argument)) :
    Halting.Lockstep L.sessions (Node.Alike L)
      (scope.compileBareField capture claims parent name arguments)
      (scope.compileBareField capture' claims parent' name arguments) := by
  have hfinish : ∀ node exact : Node, node.Alike L exact →
      Halting.Lockstep L.sessions (Node.Alike L)
      (do Halting.ofExcept (scope.schema.authorizeTy claims node.ty); return node : Compile Node)
      (do Halting.ofExcept (scope.schema.authorizeTy claims exact.ty); return exact) := by
    intro node exact hnode
    rw [hnode.ty_eq]
    exact .check fun _ => .pure hnode
  unfold compileBareField
  rw [hparent.ty_eq]
  split
  · exact .bind (compileObjectField_lockstep hcapture hmethods hparent claims _ name arguments)
      hfinish
  · by_cases hempty : arguments.isEmpty = true
    · rw [if_pos hempty, if_pos hempty]
      exact .bind (resolve_lockstep (fieldCompiler_lockstep hcapture hmethods) hparent name) hfinish
    · rw [if_neg hempty, if_neg hempty]
      exact .bind (.fail _) hfinish

/-- A selection set compiles in lockstep on both sources if its record does. -/
theorem selectOn_lockstep {source source' : Node} {path : List String}
    {build build' : Node → Run FieldFailure Node} (hsource : source.Alike L source')
    (hbuild : ∀ (ty : Ty) (name other : String), L.binders name other →
      Halting.Lockstep L.sessions (Node.Alike L) (build (.ofPlan (.param ty name)))
        (build' (.ofPlan (.param ty other)))) :
    Halting.Lockstep L.sessions (Node.Alike L) (selectOn source path build)
      (selectOn source' path build') := by
  unfold selectOn
  rw [hsource.ty_eq]
  refine .check fun ⟨ty, overItems⟩ => .bind L.fresh fun name other hname => ?_
  refine .bind (hbuild ty name other hname) fun record record' hrecord =>
    .pure (hsource.join hrecord ?_)
  cases overItems with
  | true => exact .project hname (hsource.plan_left record') (hrecord.plan_right source')
  | false => exact .given hname (hsource.plan_left record') (hrecord.plan_right source')

/-- Columns under the same names whose plans are alike with the captures of nodes that are. -/
structure ColumnsAlike (L : Likeness) (node exact : Node) (columns exacts : Entries Plan) :
    Prop where
  node : node.Alike L exact
  columns : Entries.Related (Plan.Alike L (Entries.names exact.constants)) columns exacts

/-- Alike columns stay so with a further one. -/
theorem ColumnsAlike.insert {child child' : Node} {columns exacts : Entries Plan} {name : String}
    (h : ColumnsAlike L node exact columns exacts) (hchild : child.Alike L child') :
    ColumnsAlike L (node.join child node.plan) (exact.join child' exact.plan)
      (Entries.insert columns name child.plan) (Entries.insert exacts name child'.plan) where
  node := h.node.join hchild (h.node.plan_left child')
  columns := (h.columns.mono fun _ _ hplan => hplan.mono
    fun _ hname => Entries.mem_names_extend.mpr (Or.inl hname)).insert (hchild.plan_right exact)

/-- Alike columns make alike records. -/
theorem columnsNode_lockstep {columns exacts : Entries Plan}
    (h : ColumnsAlike L node exact columns exacts) :
    Halting.Lockstep L.sessions (Node.Alike L) (columnsNode node columns)
      (columnsNode exact exacts) := by
  have htypes : columns.map (fun column => (column.1, column.2.ty)) =
      exacts.map fun column => (column.1, column.2.ty) := by
    have hcolumns := h.columns
    clear h
    induction hcolumns with
    | nil => rfl
    | cons hfirst _ ih => simp [ih, hfirst.1, hfirst.2.ty_eq]
  obtain ⟨pairs, hcolumns, hexacts, hpairs⟩ := exists_pairs_of_forall₂ h.columns.values
  unfold columnsNode
  rw [htypes, hcolumns, hexacts]
  refine .bind (L.create _) ?_
  rintro signature _ rfl
  exact .pure (h.node.map (.record hpairs))

mutual

/-- A selection compiles in lockstep on parents that are alike. -/
theorem compileSelection_lockstep (hcapture : capture.Alike L capture')
    (hmethods : scope.methods.Uniform L) (claims : Claims)
    {parent parent' : Node} (hparent : parent.Alike L parent') (path : List String) :
    (selection : Selection) → Halting.Lockstep L.sessions (Node.Alike L)
      (scope.compileSelection capture claims path parent selection)
      (scope.compileSelection capture' claims path parent' selection)
  | .spread fragment _ => by
    unfold compileSelection
    exact .fail _
  | .field name alias? arguments selections _ => by
    unfold compileSelection
    refine .bind (.mapFault (compileBareField_lockstep hcapture hmethods hparent claims name
      arguments)) fun node exact hnode => ?_
    match selections with
    | [] => exact .pure hnode
    | first :: rest =>
      refine selectOn_lockstep hnode fun ty name other hname => ?_
      have hparameter := Node.alike_param ty (L.names_of_binders hname)
      refine .bind (compileColumns_lockstep hcapture hmethods claims hparameter _ (first :: rest)
        ⟨hparameter, .nil⟩) ?_
      exact fun _ _ hcolumns => columnsNode_lockstep hcolumns

/-- Selections on alike parents compile to alike columns. -/
theorem compileColumns_lockstep (hcapture : capture.Alike L capture')
    (hmethods : scope.methods.Uniform L) (claims : Claims)
    {parent parent' : Node} (hparent : parent.Alike L parent') (path : List String) :
    (selections : List Selection) → ∀ {node exact : Node} {columns exacts : Entries Plan},
      ColumnsAlike L node exact columns exacts →
      Halting.Lockstep L.sessions (fun result result' =>
          ColumnsAlike L result.1 result'.1 result.2 result'.2)
        (scope.compileColumns capture claims path parent selections node columns)
        (scope.compileColumns capture' claims path parent' selections exact exacts)
  | [], node, exact, columns, exacts, hcolumns => by
    unfold compileColumns
    exact .pure hcolumns
  | selection :: rest, node, exact, columns, exacts, hcolumns => by
    unfold compileColumns
    exact .bind (compileSelection_lockstep hcapture hmethods claims hparent path selection)
      fun child child' hchild => compileColumns_lockstep hcapture hmethods claims hparent path rest
        (hcolumns.insert hchild)

end

end Scope

/-- Two queries are those of two nodes in the same context that are alike. -/
def Query.Alike (L : Likeness) (query exact : Query) : Prop :=
  ∃ (node node' : Node) (contextTy : Ty), node.Alike L node' ∧
    query = .ofNode node contextTy ∧ exact = .ofNode node' contextTy

/-- Two outcomes are related queries, or the same. -/
inductive Outcome.Related (related : Query → Query → Prop) : Outcome → Outcome → Prop
  | query {query exact : Query} (h : related query exact) :
      Related related (.query query) (.query exact)
  | mutation (pending : PendingMutation) : Related related (.mutation pending) (.mutation pending)
  | failed (failure : FieldFailure) : Related related (.failed failure) (.failed failure)

/-- Two compiled operations with related outcomes under the same names. -/
structure CompiledDocument.Related (related : Query → Query → Prop)
    (compiled exact : CompiledDocument) : Prop where
  kind : compiled.kind = exact.kind
  claims : compiled.claims = exact.claims
  fields : Entries.Related (Outcome.Related related) compiled.fields exact.fields

/-- Related operations are so under every weaker relation. -/
theorem CompiledDocument.Related.mono {strong weak : Query → Query → Prop}
    {compiled exact : CompiledDocument} (h : CompiledDocument.Related strong compiled exact)
    (himp : ∀ query exact, strong query exact → weak query exact) :
    CompiledDocument.Related weak compiled exact := by
  refine ⟨h.kind, h.claims, h.fields.mono fun outcome exact houtcome => ?_⟩
  cases houtcome with
  | query h => exact .query (himp _ _ h)
  | mutation pending => exact .mutation pending
  | failed failure => exact .failed failure

variable {L : Likeness} {scope : Scope} {capture capture' : Capture}
  {outcomes exacts : Entries Outcome}

/-- A source text compiles in lockstep. -/
theorem Query.compile_lockstep (hcapture : capture.Alike L capture')
    (hcontext : L.names contextName contextName) (hmethods : scope.methods.Uniform L)
    (contextTy : Ty) (source : String) :
    Halting.Lockstep L.sessions (Query.Alike L) (Query.compile scope contextTy source capture)
      (Query.compile scope contextTy source capture') :=
  .bind (Scope.compileText_lockstep hcapture hmethods
    (Scope.fieldCompiler_lockstep hcapture hmethods)
    (Node.alike_param contextTy hcontext) source) fun node exact hnode =>
      .pure ⟨node, exact, contextTy, hnode, rfl, rfl⟩

/-- A field of a document has related outcomes. -/
theorem compileTopField_lockstep (hcapture : capture.Alike L capture')
    (hcontext : L.names contextName contextName) (hmethods : scope.methods.Uniform L)
    (claims : Claims) (kind : OperationKind) (selection : Selection) :
    Halting.Lockstep L.sessions (Outcome.Related (Query.Alike L))
      (compileTopField scope capture claims kind selection)
      (compileTopField scope capture' claims kind selection) := by
  unfold compileTopField
  split
  · split
    · exact .pure (.mutation _)
    · exact .pure (.failed _)
  · refine .bind (.attempt (Scope.compileSelection_lockstep hcapture hmethods claims
      (Node.alike_param scope.schema.contextTy hcontext) [] selection)) ?_
    intro outcome exact houtcome
    cases houtcome with
    | ok hnode => exact .pure (.query ⟨_, _, _, hnode, rfl, rfl⟩)
    | error failure => exact .pure (.failed failure)

/-- The fields of a document have related outcomes. -/
theorem compileTopFields_lockstep (hcapture : capture.Alike L capture')
    (hcontext : L.names contextName contextName) (hmethods : scope.methods.Uniform L)
    (claims : Claims) (kind : OperationKind) (selections : List Selection)
    (houtcomes : Entries.Related (Outcome.Related (Query.Alike L)) outcomes exacts) :
    Halting.Lockstep L.sessions (Entries.Related (Outcome.Related (Query.Alike L)))
      (compileTopFields scope capture claims kind selections outcomes)
      (compileTopFields scope capture' claims kind selections exacts) := by
  induction selections generalizing outcomes exacts with
  | nil => exact .pure houtcomes
  | cons selection rest ih =>
    exact .bind (compileTopField_lockstep hcapture hcontext hmethods claims kind selection)
      fun _ _ houtcome => ih (houtcomes.insert houtcome)

/-- The selections of a document have related outcomes, fragments written out. -/
theorem compileSelections_lockstep (hcapture : capture.Alike L capture')
    (hcontext : L.names contextName contextName) (hmethods : scope.methods.Uniform L)
    (document : Document) (claims : Claims) (kind : OperationKind) (selections : List Selection)
    (houtcomes : Entries.Related (Outcome.Related (Query.Alike L)) outcomes exacts) :
    Halting.Lockstep L.sessions (Entries.Related (Outcome.Related (Query.Alike L)))
      (compileSelections document scope capture claims kind selections outcomes)
      (compileSelections document scope capture' claims kind selections exacts) := by
  induction selections generalizing outcomes exacts with
  | nil => exact .pure houtcomes
  | cons selection rest ih =>
    unfold compileSelections
    split
    · exact ih (houtcomes.insert (.failed _))
    · exact .bind (compileTopFields_lockstep hcapture hcontext hmethods claims kind _ houtcomes)
        fun _ _ houtcomes => ih houtcomes

/-- An operation of a document compiles in lockstep. -/
theorem Host.compileOperation_lockstep {host : Host} (hcapture : capture.Alike L capture')
    (hcontext : L.names contextName contextName) (hmethods : host.methods.Uniform L)
    (document : Document) (request : Request) :
    Halting.Lockstep L.sessions (CompiledDocument.Related (Query.Alike L))
      (host.compileOperation document request capture)
      (host.compileOperation document request capture') := by
  unfold compileOperation
  refine .check fun operation => .check fun vars => ?_
  have hscope : (host.scope vars).methods.Uniform L := hmethods
  exact .bind (.mapFault (compileSelections_lockstep hcapture hcontext hscope document
    request.claims operation.kind operation.selections .nil)) fun _ _ hfields =>
      .pure ⟨rfl, rfl, hfields⟩

end TypedQuery
