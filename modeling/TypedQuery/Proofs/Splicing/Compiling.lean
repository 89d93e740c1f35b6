import TypedQuery.Proofs.Splicing.Bodies
import TypedQuery.Proofs.Splicing.Links

/-!
# Nodes whose links can be built again

All that compiles on nodes whose links can be built again has such links itself: fields, method
calls and selections put a link only on what it can stand on, at the type that follows from there.
So this is so for every node that is produced by compiling, from parameters on.
-/

namespace TypedQuery

open Halting

/-- The links of the chain of a node can be built again. -/
def Node.Rebuilds (node : Node) : Prop :=
  node.plan.Rebuilds

/-- An operation through which no chain continues is no link. -/
theorem Plan.rebuilds_unary {ty : Ty} {op : UnaryOp} {operand : Plan} (hlink : op.isLink = false) :
    (unary ty op operand).Rebuilds :=
  fun h => absurd (hlink.symm.trans h) Bool.false_ne_true

/-- A member is a link on an object, on a record that has it, and on a dynamic value. -/
theorem Node.Rebuilds.member {node : Node} (hnode : node.Rebuilds) {name : String} {ty : Ty}
    (hmembers : node.ty.hasMembers = true) (hty : (node.ty.member? name).getD ty = ty) :
    (node.map fun plan => plan.member name ty).Rebuilds :=
  fun _ => ⟨hmembers, hty, hnode⟩

/-- The links of what a method makes of a receiver can be built again if those of the receiver
can. -/
def Method.Rebuilding (method : Method) : Prop :=
  ∀ (receiver caller : Node) (arguments : List CallArgument), receiver.Rebuilds →
    Ensures (method.apply receiver caller arguments) Node.Rebuilds

/-- This is so for all methods of a library. -/
def MethodLibrary.Rebuilding (library : MethodLibrary) : Prop :=
  ∀ name method, library.find? name = some method → method.Rebuilding

namespace Method

variable {call : MethodCall} {method : Method}

/-- A method whose arguments are compiled on items has a list as its receiver. -/
theorem rebuilding_of_build (h : ∀ call : MethodCall, call.receiver.Rebuilds →
    (method.context = .element → call.receiver.ty.isSequence = true) →
      Ensures (method.build call) Node.Rebuilds) : method.Rebuilding := by
  intro receiver caller arguments hreceiver
  unfold apply
  cases hcontext : method.context with
  | caller => exact h _ hreceiver fun helement => absurd (hcontext.symm.trans helement) nofun
  | element =>
    dsimp only
    cases helement : receiver.ty.element? with
    | none => exact .fail _
    | some element =>
      refine .bind Run.freshName_ensures fun name _ => h _ hreceiver fun _ => ?_
      change receiver.ty.isSequence = true
      rw [Ty.eq_list_of_element? helement]
      rfl

/-- The filtered receiver is the receiver itself, or no link. -/
theorem filtered_rebuilds (hreceiver : call.receiver.Rebuilds) :
    Ensures (filtered call) fun node => node.Rebuilds ∧ node.ty = call.receiver.ty := by
  unfold filtered
  split
  · exact .pure ⟨hreceiver, rfl⟩
  · exact .bind (.of_forall (predicate call) fun _ => trivial) fun test _ => .pure ⟨trivial, rfl⟩

/-- A reduction stands on the list that it reduces. -/
theorem reduce_rebuilds (reduction : Reduction) (hreceiver : call.receiver.Rebuilds)
    (hsequence : call.receiver.ty.isSequence = true) :
    Ensures (reduce reduction call) Node.Rebuilds := by
  refine .bind (filtered_rebuilds hreceiver) fun node ⟨hnode, hty⟩ => .pure fun _ => ?_
  refine ⟨?_, rfl, hnode⟩
  change (node.ty.isSequence || node.ty.underlying = .any) = true
  rw [hty, hsequence]
  rfl

/-- Removing repetitions leaves nothing to be built again. -/
theorem distinct_rebuilds : Ensures (distinct call) Node.Rebuilds :=
  .bind (.of_forall (filtered call) fun _ => trivial) fun _ _ => .pure (Plan.rebuilds_unary rfl)

/-- The links of a part of a list can be built again if the cut is one that can. -/
theorem page_rebuilds {cut : Plan → Plan → Plan}
    (hcut : ∀ source count, (cut source count).Rebuilds) :
    Ensures (page cut call) Node.Rebuilds := by
  refine .bind (.of_forall (call.compileArgument 0) fun _ => trivial) fun count _ => ?_
  split
  · exact .fail _
  · exact .pure (hcut _ _)

/-- Sorting leaves nothing to be built again. -/
theorem orderBy_rebuilds (descending : Bool) : Ensures (orderBy descending call) Node.Rebuilds := by
  refine .bind (.of_forall (call.compileArgument 0) fun _ => trivial) fun key _ => ?_
  split
  · exact .pure trivial
  · exact .fail _

/-- Membership in a list leaves nothing to be built again. -/
theorem inSet_rebuilds : Ensures (inSet call) Node.Rebuilds := by
  refine .check fun set _ => .check fun ty _ => ?_
  dsimp only
  generalize (if ty = .string then call.receiver.ty.isString
    else call.receiver.ty.intKind?.isSome) = fits
  split
  · exact .fail _
  · exact .pure (Plan.rebuilds_unary rfl)

/-- A test of a text leaves nothing to be built again. -/
theorem textTest_rebuilds (test : TextTest) : Ensures (textTest test call) Node.Rebuilds := by
  refine .bind (.of_forall (call.compileArgument 0) fun _ => trivial) fun argument _ => ?_
  split
  · exact .pure trivial
  · exact .fail _

/-- A negation leaves nothing to be built again. -/
theorem not_rebuilds : Ensures (not call) Node.Rebuilds := by
  refine .bind (.of_forall (call.compileArgument 0) fun _ => trivial) fun operand _ => ?_
  split
  · exact .pure (Plan.rebuilds_unary rfl)
  · exact .fail _

/-- A standard method makes a reduction, its receiver, or a node that is no link. -/
theorem rebuilding_of_mem_standard (hmem : method ∈ standard) : method.Rebuilding := by
  refine rebuilding_of_build fun call hreceiver hsequence => ?_
  simp only [standard, List.mem_cons, List.not_mem_nil, or_false] at hmem
  rcases hmem with rfl | rfl | rfl | rfl | rfl | rfl | rfl | rfl | rfl | rfl | rfl | rfl | rfl |
    rfl | rfl | rfl
  · exact .mono (filtered_rebuilds hreceiver) fun _ h => h.1
  · exact .mono (filtered_rebuilds hreceiver) fun _ h => h.1
  · exact reduce_rebuilds _ hreceiver (hsequence rfl)
  · exact reduce_rebuilds _ hreceiver (hsequence rfl)
  · exact reduce_rebuilds _ hreceiver (hsequence rfl)
  · exact distinct_rebuilds
  · exact page_rebuilds fun _ _ => trivial
  · exact page_rebuilds fun _ _ => trivial
  · exact orderBy_rebuilds _
  · exact orderBy_rebuilds _
  · exact inSet_rebuilds
  · exact textTest_rebuilds _
  · exact textTest_rebuilds _
  · exact textTest_rebuilds _
  · exact textTest_rebuilds _
  · exact not_rebuilds

end Method

namespace MethodLibrary

variable {library : MethodLibrary}

/-- The standard methods put links only on what can be built again. -/
theorem rebuilding_standard : standard.Rebuilding :=
  fun _ _ h => Method.rebuilding_of_mem_standard (mem_of_find?_ofList h)

/-- A call makes a node whose links can be built again, on a list or by a graft. -/
theorem call_rebuilds (hlibrary : library.Rebuilding) {receiver caller : Node}
    (hreceiver : receiver.Rebuilds) (name : String) (arguments : List CallArgument) :
    Ensures (library.call receiver name arguments caller) Node.Rebuilds := by
  unfold call
  cases hfind : library.find? name with
  | none => exact .fail _
  | some method =>
    have hmethod := hlibrary name method hfind
    refine .check fun _ _ => ?_
    split
    · exact Plan.graft_rebuilds (fun list _ hlist => hmethod { receiver with plan := list } caller
        arguments hlist) receiver.plan hreceiver
    · exact hmethod receiver caller arguments hreceiver

end MethodLibrary

/-- Fields of objects compile to nodes whose links can be built again. -/
def FieldCompiler.Rebuilding (fields : FieldCompiler) : Prop :=
  ∀ (parent : Node) (type : String) (field : FieldDefinition) (bound : Entries Value),
    parent.Rebuilds → parent.ty.underlying = .object type →
      Ensures (fields parent field bound) Node.Rebuilds

namespace Scope

variable {scope : Scope} {fields : FieldCompiler} {parent context : Node}

/-- The links of a name can be built again if those of its parent can. -/
theorem resolve_rebuilds (hfields : fields.Rebuilding) (hparent : parent.Rebuilds)
    (name : String) : Ensures (scope.resolve fields parent name) Node.Rebuilds := by
  unfold resolve
  split
  · rename_i type htype
    split
    · exact .fail _
    · exact .check fun bound _ => hfields _ type _ bound hparent htype
  · rename_i signature htype
    split
    · rename_i ty hty
      refine .pure (hparent.member ?_ ?_)
      · rw [Ty.hasMembers, htype]
      · rw [Ty.member?, htype]
        change (Signature.type? signature name).getD ty = ty
        rw [hty]
        rfl
    · exact .fail _
  · rename_i htype
    refine .pure (hparent.member ?_ ?_)
    · rw [Ty.hasMembers, htype]
    · rw [Ty.member?, htype]
      rfl
  · exact .fail _

/-- The links of an expression are those of what it is applied to. -/
theorem compileExpr_rebuilds (hmethods : scope.methods.Rebuilding) (hfields : fields.Rebuilding)
    (hcontext : context.Rebuilds) (expr : Expr) :
    Ensures (scope.compileExpr .parameter fields context expr) Node.Rebuilds := by
  cases expr with
  | literal value =>
    unfold compileExpr
    cases value with
    | integer n =>
      unfold Literal.node
      dsimp only
      split
      · exact .pure trivial
      · exact .pure trivial
    | decimal _ | text _ | boolean _ | null => exact .pure trivial
  | var name =>
    unfold compileExpr variableNode
    split
    · exact .fail _
    · exact .pure trivial
  | identifier name =>
    unfold compileExpr
    exact resolve_rebuilds hfields hcontext name
  | access object name =>
    unfold compileExpr
    exact .bind (compileExpr_rebuilds hmethods hfields hcontext object) fun _ hparent =>
      resolve_rebuilds hfields hparent name
  | invoke method arguments =>
    unfold compileExpr
    exact MethodLibrary.call_rebuilds hmethods hcontext method _
  | call receiver method arguments =>
    unfold compileExpr
    exact .bind (compileExpr_rebuilds hmethods hfields hcontext receiver) fun _ hreceiver =>
      MethodLibrary.call_rebuilds hmethods hreceiver method _
  | binary op left right =>
    unfold compileExpr
    refine .bind (compileExpr_rebuilds hmethods hfields hcontext left) fun l _ => ?_
    refine .bind (compileExpr_rebuilds hmethods hfields hcontext right) fun r _ => ?_
    refine .check fun plan hplan => ?_
    obtain ⟨_, _, _, rfl⟩ := Plan.reconcile_eq_operator hplan
    exact .pure trivial
  | conditional test testText yes no =>
    unfold compileExpr
    refine .bind (compileExpr_rebuilds hmethods hfields hcontext test) fun t _ => ?_
    split
    · exact .fail _
    · refine .bind (compileExpr_rebuilds hmethods hfields hcontext yes) fun y _ => ?_
      exact .bind (compileExpr_rebuilds hmethods hfields hcontext no) fun n _ => .pure trivial

/-- The links of a source text can be built again if those of its parent can. -/
theorem compileText_rebuilds (hmethods : scope.methods.Rebuilding) (hfields : fields.Rebuilding)
    (hparent : parent.Rebuilds) (source : String) :
    Ensures (scope.compileText .parameter fields parent source) Node.Rebuilds :=
  .check fun expr _ => compileExpr_rebuilds hmethods hfields hparent expr

/-- The links of the inputs of a computed field can be built again. -/
theorem compileInputs_rebuilds {compile : String → Compile Node}
    (hcompile : ∀ source, Ensures (compile source) Node.Rebuilds) {inputs : List String} :
    Ensures (compileInputs compile parent inputs) fun result =>
      ∀ plan ∈ result.2, plan.Rebuilds := by
  induction inputs generalizing parent with
  | nil => exact .pure fun _ h => absurd h List.not_mem_nil
  | cons source rest ih =>
    unfold compileInputs
    exact .bind (hcompile source) fun input hinput => .bind ih fun _ hplans =>
      .pure (List.forall_mem_cons.mpr ⟨hinput, hplans⟩)

/-- A field of an object is a member, or what its source compiles to, or a call of a service on
what its inputs compile to. -/
theorem compileResolver_rebuilds {compile : String → Compile Node}
    (hcompile : ∀ source, Ensures (compile source) Node.Rebuilds) (hparent : parent.Rebuilds)
    {type : String} (htype : parent.ty.underlying = .object type) (field : FieldDefinition) :
    Ensures (compileResolver compile parent field) Node.Rebuilds := by
  unfold compileResolver
  split
  · refine .pure (hparent.member ?_ ?_)
    · rw [Ty.hasMembers, htype]
    · rw [Ty.member?, htype]
      rfl
  · exact hcompile _
  · refine .bind (compileInputs_rebuilds hcompile) fun ⟨node, plans⟩ hplans => .pure ?_
    cases plans with
    | nil => trivial
    | cons first rest => exact hplans first List.mem_cons_self

/-- Fields compile to nodes whose links can be built again at every depth. -/
theorem rebuilding_compileField {schema : Schema} {methods : MethodLibrary}
    (hmethods : methods.Rebuilding) (depth : Nat) : ∀ vars : Entries Value,
      (compileField .parameter schema methods depth vars).Rebuilding := by
  induction depth with
  | zero =>
    intro vars parent type field bound hparent htype
    exact compileResolver_rebuilds (fun _ => .tooDeep) hparent htype field
  | succ depth ih =>
    intro vars parent type field bound hparent htype
    exact compileResolver_rebuilds
      (fun source => compileText_rebuilds hmethods (ih _) hparent source) hparent htype field

/-- Fields of the schema compile to nodes whose links can be built again. -/
theorem rebuilding_fieldCompiler (hmethods : scope.methods.Rebuilding) :
    (scope.fieldCompiler .parameter).Rebuilding :=
  rebuilding_compileField hmethods scope.depth scope.vars

/-- Arguments of the sequence leave the links of a list so that they can be built again. -/
theorem applySequence_rebuilds (hmethods : scope.methods.Rebuilding) {caller node : Node}
    {arguments : List (String × Value)} {names : List String} (hnode : node.Rebuilds) :
    Ensures (scope.applySequence .parameter arguments caller names node) Node.Rebuilds := by
  induction names generalizing node with
  | nil => exact .pure hnode
  | cons name rest ih =>
    unfold applySequence
    split
    · exact ih hnode
    · exact ih hnode
    · exact .check fun ⟨method, expr⟩ _ =>
        .bind (MethodLibrary.call_rebuilds hmethods hnode method _) fun next hnext => ih hnext

/-- The links of a field of a document can be built again. -/
theorem compileBareField_rebuilds (hmethods : scope.methods.Rebuilding) {claims : Claims}
    (hparent : parent.Rebuilds) {name : String} {arguments : List (String × Argument)} :
    Ensures (scope.compileBareField .parameter claims parent name arguments) Node.Rebuilds := by
  have hfields : (scope.fieldCompiler .parameter).Rebuilding := rebuilding_fieldCompiler hmethods
  have hfinish : ∀ node : Node, node.Rebuilds →
      Ensures (do Halting.ofExcept (scope.schema.authorizeTy claims node.ty); return node :
        Compile Node) Node.Rebuilds := fun node hnode => .check fun _ _ => .pure hnode
  unfold compileBareField
  split
  · rename_i type htype
    refine .bind ?_ hfinish
    unfold compileObjectField
    split
    · exact .fail _
    · exact .check fun _ _ => .check fun values _ => .check fun bound _ =>
        .bind (hfields parent type _ bound hparent htype) fun node hnode =>
          applySequence_rebuilds hmethods hnode
  · split
    · exact .bind (resolve_rebuilds hfields hparent name) hfinish
    · exact .bind (.fail _) hfinish

end Scope

/-- A library whose methods keep the typing rules, do not look at the names of parameters, and put
a link only on what it can stand on. -/
structure MethodLibrary.Regular (library : MethodLibrary) : Prop where
  sound : library.Sound .none
  uniform : ∀ n, library.Uniform (.avoiding n)
  rebuilding : library.Rebuilding

/-- The standard library is regular. -/
theorem MethodLibrary.regular_standard : standard.Regular :=
  ⟨sound_standard .none, fun _ => uniform_standard, rebuilding_standard⟩

/-- A selection set on a source is a link on it, or no link. -/
theorem Scope.select_rebuilds {scope : Scope} (hmethods : scope.methods.Regular) {claims : Claims}
    {path : List String} {source : Node} {selections : List Selection} (hsource : source.Rebuilds) :
    Ensures (scope.select claims path source selections) Node.Rebuilds := by
  intro session node final hrun
  obtain ⟨item, overItems, record, hitem, hrecord, rfl⟩ := selectOn_eq_ok.mp hrun
  -- The parameter got its name before the record was compiled, so the record does not bind it.
  have hbody := rebind_recordOn hmethods.sound (hmethods.uniform _) (Nat.lt_succ_self _) hrecord
  cases overItems with
  | true => trivial
  | false =>
    obtain ⟨hmembers, rfl⟩ : source.ty.hasMembers = true ∧ item = source.ty.underlying := by
      unfold selectedTy at hitem
      split at hitem
      · cases hitem
      · split at hitem
        · cases hitem
          exact ⟨‹_›, rfl⟩
        · cases hitem
    exact ⟨hmembers, hbody, rfl, hsource⟩

namespace Node

/-- The nodes that compiling produces one from another, beginning with parameters: those of
expressions in a context, of fields of objects, of fields of documents, of method calls, and of
selection sets. -/
inductive Produced : Node → Prop
  | parameter (ty : Ty) (name : String) : Produced (.ofPlan (.param ty name))
  | expression {scope : Scope} {context node : Node} {expr : Expr} {session final : Session}
      (hmethods : scope.methods.Regular) (hcontext : Produced context)
      (h : (scope.compile context expr) session = .ok node final) : Produced node
  | resolved {scope : Scope} {parent node : Node} {type : String} {field : FieldDefinition}
      {bound : Entries Value} {session final : Session} (hmethods : scope.methods.Regular)
      (hparent : Produced parent) (htype : parent.ty.underlying = .object type)
      (h : scope.fieldCompiler .parameter parent field bound session = .ok node final) :
      Produced node
  | field {scope : Scope} {claims : Claims} {parent node : Node} {name : String}
      {arguments : List (String × Argument)} {session final : Session}
      (hmethods : scope.methods.Regular) (hparent : Produced parent)
      (h : scope.compileBareField .parameter claims parent name arguments session =
        .ok node final) : Produced node
  | call {scope : Scope} {receiver caller node : Node} {method : String} {arguments : List Expr}
      {session final : Session} (hmethods : scope.methods.Regular) (hreceiver : Produced receiver)
      (h : scope.callMethod .parameter receiver method arguments caller session =
        .ok node final) : Produced node
  | select {scope : Scope} {claims : Claims} {path : List String} {source node : Node}
      {selections : List Selection} {session final : Session} (hmethods : scope.methods.Regular)
      (hsource : Produced source)
      (h : scope.select claims path source selections session = .ok node final) : Produced node

/-- The links of a node that compiling produces can be built again. -/
theorem Produced.rebuilds {node : Node} (h : node.Produced) : node.Rebuilds := by
  induction h with
  | parameter ty name => trivial
  | expression hmethods _ h ih =>
    exact Scope.compileExpr_rebuilds hmethods.rebuilding
      (Scope.rebuilding_fieldCompiler hmethods.rebuilding) ih _ _ _ _ h
  | resolved hmethods _ htype h ih =>
    exact Scope.rebuilding_fieldCompiler hmethods.rebuilding _ _ _ _ ih htype _ _ _ h
  | field hmethods _ h ih =>
    exact Scope.compileBareField_rebuilds hmethods.rebuilding ih _ _ _ h
  | call hmethods _ h ih => exact MethodLibrary.call_rebuilds hmethods.rebuilding ih _ _ _ _ _ h
  | select hmethods _ h ih => exact Scope.select_rebuilds hmethods ih _ _ _ h

variable {scope : Scope} {parent node : Node} {session final : Session}

/-- What a source text compiles to is produced. -/
theorem Produced.of_compileSource (hmethods : scope.methods.Regular) (hparent : parent.Produced)
    {source : String} (h : (scope.compileSource parent source) session = .ok node final) :
    node.Produced := by
  obtain ⟨expr, _, h⟩ := check_eq_ok.mp h
  exact .expression hmethods hparent h

/-- What a field of a document compiles to with its selections is produced. -/
theorem Produced.of_compileSelection (hmethods : scope.methods.Regular) (hparent : parent.Produced)
    {claims : Claims} {path : List String} {selection : Selection}
    (h : scope.compileSelection .parameter claims path parent selection session =
      .ok node final) : node.Produced := by
  cases selection with
  | spread fragment position => cases h
  | field name alias? arguments selections position =>
    unfold Scope.compileSelection at h
    obtain ⟨source, between, hsource, h⟩ := bind_eq_ok.mp h
    have hproduced := field hmethods hparent (mapFault_eq_ok.mp hsource)
    match selections with
    | [] =>
      obtain ⟨rfl, rfl⟩ := pure_eq_ok.mp h
      exact hproduced
    | first :: rest => exact .select hmethods hproduced h

end Node

end TypedQuery
