import TypedQuery.Proofs.Compile.Typing
import TypedQuery.Proofs.Plan.Comparing
import TypedQuery.Proofs.Plan.Vetting

/-!
# Expressions compile to vetted plans

Every rule of a standard method checks the types of its receiver and of its arguments before it
builds its node, and so do operators and conditionals. Where no field of the schema is one of a
service, an expression therefore compiles to a vetted node.
-/

namespace TypedQuery

open Halting

/-- No field of a schema is one of a service. -/
def Schema.WithoutServices (schema : Schema) : Prop :=
  ∀ type name field service inputs run, schema.field? type name = some field →
    field.resolver ≠ .service service inputs run

/-- An argument compiles to a vetted node in every vetted context. -/
def CallArgument.Vets (argument : CallArgument) : Prop :=
  ∀ context : Node, context.Vetted → Ensures (argument.compile context) Node.Vetted

/-- A method makes vetted nodes of vetted nodes, on lists if it needs them. -/
def Method.Vets (method : Method) : Prop :=
  ∀ (receiver caller : Node) (arguments : List CallArgument), receiver.Vetted → caller.Vetted →
    (∀ argument ∈ arguments, argument.Vets) →
    (method.needsSequence = true → receiver.ty.isSequence = true) →
    Ensures (method.apply receiver caller arguments) Node.Vetted

/-- All methods of a library make vetted nodes. -/
def MethodLibrary.Vets (library : MethodLibrary) : Prop :=
  ∀ name method, library.find? name = some method → method.Vets

/-- A call of a method makes a vetted node. -/
theorem MethodLibrary.call_vetted {library : MethodLibrary} {receiver caller : Node} {name : String}
    {arguments : List CallArgument} (hlibrary : library.Vets) (hreceiver : receiver.Vetted)
    (hcaller : caller.Vetted) (harguments : ∀ argument ∈ arguments, argument.Vets) :
    Ensures (library.call receiver name arguments caller) Node.Vetted := by
  unfold call
  cases hfind : library.find? name with
  | none => exact .fail _
  | some method =>
    have hmethod := hlibrary name method hfind
    refine .check fun _ _ => ?_
    split
    · refine Plan.graft_vetted (fun list hlist hvetted => ?_) receiver.plan hreceiver.plan
      exact hmethod { receiver with plan := list } caller arguments ⟨hvetted, hreceiver.services⟩
        hcaller harguments fun _ => hlist
    · rename_i hgraft
      refine hmethod receiver caller arguments hreceiver hcaller harguments fun hneeds => ?_
      simpa [hneeds] using hgraft

/-- What the rule of a method may rely on. -/
structure MethodCall.Vetted (call : MethodCall) : Prop where
  receiver : call.receiver.Vetted
  inner : call.inner.Vetted
  arguments : ∀ argument ∈ call.arguments, argument.Vets

namespace Method

variable {call : MethodCall} {method : Method}

/-- A method makes vetted nodes if its rule does, on lists if the method needs them. -/
theorem vets_of_build
    (h : ∀ call : MethodCall, call.Vetted →
      (method.needsSequence = true → call.receiver.ty.isSequence = true) →
      Ensures (method.build call) Node.Vetted) : method.Vets := by
  intro receiver caller arguments hreceiver hcaller harguments hlist
  unfold apply
  cases method.context with
  | caller => exact h _ ⟨hreceiver, hcaller, harguments⟩ hlist
  | element =>
    dsimp only
    split
    · exact .fail _
    · exact .bind (p := fun _ => True) (fun _ _ _ _ => trivial) fun name _ =>
        h _ ⟨hreceiver, ⟨.param _ _, rfl⟩, harguments⟩ hlist

/-- An argument of a call compiles to a vetted node. -/
theorem compileArgument_vetted (hcall : call.Vetted) (index : Nat) :
    Ensures (call.compileArgument index) Node.Vetted := by
  unfold MethodCall.compileArgument
  split
  · rename_i argument hargument
    exact hcall.arguments argument (List.mem_of_getElem? hargument) call.inner hcall.inner
  · exact .fail _

/-- The predicate of a call compiles to a vetted node. -/
theorem predicate_vetted (hcall : call.Vetted) : Ensures (predicate call) Node.Vetted := by
  refine .bind (compileArgument_vetted hcall 0) fun node hnode => ?_
  split
  · rename_i hplan
    exact .pure ⟨(hnode.plan.asPredicate? hplan).1, hnode.services⟩
  · exact .fail _

/-- The filtered receiver has the type of the receiver. -/
theorem filtered_vetted (hcall : call.Vetted) :
    Ensures (filtered call) fun node => node.Vetted ∧ node.ty = call.receiver.ty := by
  unfold filtered
  split
  · exact .pure ⟨hcall.receiver, rfl⟩
  · refine .bind (predicate_vetted hcall) fun test htest => .pure ⟨?_, rfl⟩
    exact hcall.receiver.join htest (hcall.receiver.plan.bind htest.plan nofun)

/-- Reducing a list makes a vetted node. -/
theorem reduce_vetted (reduction : Reduction) (hcall : call.Vetted)
    (hlist : call.receiver.ty.isSequence = true) : Ensures (reduce reduction call) Node.Vetted := by
  refine .bind (filtered_vetted hcall) fun node ⟨hnode, hty⟩ => .pure ⟨?_, hnode.services⟩
  have hreducible : node.ty.isReducible = true := by
    unfold Ty.isReducible
    rw [hty, hlist]
    rfl
  exact hnode.plan.unary hreducible

/-- Removing repetitions makes a vetted node. -/
theorem distinct_vetted (hcall : call.Vetted) (hlist : call.receiver.ty.isSequence = true) :
    Ensures (distinct call) Node.Vetted := by
  refine .bind (filtered_vetted hcall) fun node ⟨hnode, hty⟩ => .pure ⟨?_, hnode.services⟩
  have hsequence : node.ty.isSequence = true := by rw [hty, hlist]
  exact hnode.plan.unary hsequence

/-- Sorting makes a vetted node. -/
theorem orderBy_vetted (descending : Bool) (hcall : call.Vetted) :
    Ensures (orderBy descending call) Node.Vetted := by
  refine .bind (compileArgument_vetted hcall 0) fun key hkey => ?_
  split
  · exact .pure (hcall.receiver.join hkey (hcall.receiver.plan.bind hkey.plan nofun))
  · exact .fail _

/-- The count of a cut is an integer. -/
theorem page_vetted {op : BinaryOp} (hop : op = .take ∨ op = .skip) (hcall : call.Vetted)
    (hlist : call.receiver.ty.isSequence = true) :
    Ensures (page (fun source count => .binary source.ty op source count) call) Node.Vetted := by
  refine .bind (compileArgument_vetted hcall 0) fun count hcount => ?_
  split
  · exact .fail _
  · have hconverted := hcount.plan.adapted (.convertOperand count.plan (.int .i32))
    have htakes : op.Takes call.receiver.ty (count.plan.convertOperand (.int .i32)).ty := by
      rw [Plan.convertOperand_ty]
      rcases hop with rfl | rfl <;> exact ⟨hlist, rfl⟩
    exact .pure (hcall.receiver.join hcount (hcall.receiver.plan.binary hconverted htakes))

/-- Membership in a list makes a vetted node. -/
theorem inSet_vetted (hcall : call.Vetted) : Ensures (inSet call) Node.Vetted := by
  refine .check fun set _ => .check fun ty _ => ?_
  have hvetted : (call.receiver.map fun plan => plan.inSet set).Vetted :=
    ⟨hcall.receiver.plan.unary trivial, hcall.receiver.services⟩
  dsimp only
  generalize (if ty = .string then call.receiver.ty.isString
    else call.receiver.ty.intKind?.isSome) = fits
  split
  · exact .fail _
  · exact .pure hvetted

/-- A test of a text makes a vetted node. -/
theorem textTest_vetted (test : TextTest) (hcall : call.Vetted) :
    Ensures (textTest test call) Node.Vetted := by
  refine .bind (compileArgument_vetted hcall 0) fun argument hargument => ?_
  split
  · rename_i htexts
    have htakes : (BinaryOp.textTest test).Takes call.receiver.ty argument.ty := by
      simpa [isTextLike, BinaryOp.Takes] using htexts
    exact .pure (hcall.receiver.join hargument
      (hcall.receiver.plan.binary hargument.plan htakes))
  · exact .fail _

/-- A negation makes a vetted node. -/
theorem not_vetted (hcall : call.Vetted) : Ensures (not call) Node.Vetted := by
  refine .bind (compileArgument_vetted hcall 0) fun operand hoperand => ?_
  split
  · rename_i hplan
    obtain ⟨hvetted, hty⟩ := hoperand.plan.asPredicate? hplan
    exact .pure ⟨hvetted.unary hty, hoperand.services⟩
  · exact .fail _

/-- Every standard method makes vetted nodes. -/
theorem vets_of_mem_standard (hmem : method ∈ standard) : method.Vets := by
  have hplain : ∀ {build : MethodCall → Compile Node} {name : String} {arity : Arity}
      {context : ArgumentContext} {onSequence : Bool},
      (∀ call : MethodCall, call.Vetted → Ensures (build call) Node.Vetted) →
      Method.Vets ⟨name, arity, context, onSequence, build⟩ :=
    fun h => vets_of_build fun call hcall _ => h call hcall
  have hsequence : ∀ {method : Method}, method.needsSequence = true →
      (∀ call : MethodCall, call.Vetted → call.receiver.ty.isSequence = true →
        Ensures (method.build call) Node.Vetted) → method.Vets :=
    fun hneeds h => vets_of_build fun call hcall hlist => h call hcall (hlist hneeds)
  have hfiltered : ∀ call : MethodCall, call.Vetted → Ensures (filtered call) Node.Vetted :=
    fun call hcall => .mono (filtered_vetted hcall) fun node hnode => hnode.1
  simp only [standard, List.mem_cons, List.not_mem_nil, or_false] at hmem
  rcases hmem with rfl | rfl | rfl | rfl | rfl | rfl | rfl | rfl | rfl | rfl | rfl | rfl | rfl |
    rfl | rfl | rfl
  · exact hplain hfiltered
  · exact hplain hfiltered
  · exact hsequence rfl fun call hcall hlist => reduce_vetted _ hcall hlist
  · exact hsequence rfl fun call hcall hlist => reduce_vetted _ hcall hlist
  · exact hsequence rfl fun call hcall hlist => reduce_vetted _ hcall hlist
  · exact hsequence rfl fun call hcall hlist => distinct_vetted hcall hlist
  · exact hsequence rfl fun call hcall hlist => page_vetted (.inl rfl) hcall hlist
  · exact hsequence rfl fun call hcall hlist => page_vetted (.inr rfl) hcall hlist
  · exact hplain fun call hcall => orderBy_vetted _ hcall
  · exact hplain fun call hcall => orderBy_vetted _ hcall
  · exact hplain fun call hcall => inSet_vetted hcall
  · exact hplain fun call hcall => textTest_vetted _ hcall
  · exact hplain fun call hcall => textTest_vetted _ hcall
  · exact hplain fun call hcall => textTest_vetted _ hcall
  · exact hplain fun call hcall => textTest_vetted _ hcall
  · exact hplain fun call hcall => not_vetted hcall

end Method

/-- The standard methods make vetted nodes. -/
theorem MethodLibrary.vets_standard : MethodLibrary.standard.Vets :=
  fun _ _ h => Method.vets_of_mem_standard (mem_of_find?_ofList h)

/-- Fields that are not those of services compile to vetted nodes on vetted parents. -/
def FieldCompiler.Vets (fields : FieldCompiler) : Prop :=
  ∀ (parent : Node) (field : FieldDefinition) (bound : Entries Value), parent.Vetted →
    (∀ service inputs run, field.resolver ≠ .service service inputs run) →
    Ensures (fields parent field bound) Node.Vetted

namespace Scope

variable {scope : Scope} {fields : FieldCompiler} {parent context : Node}

/-- A name on a vetted parent compiles to a vetted node. -/
theorem resolve_vetted (hservices : scope.schema.WithoutServices) (hfields : fields.Vets)
    (hparent : parent.Vetted) (name : String) :
    Ensures (scope.resolve fields parent name) Node.Vetted := by
  have hmember : ∀ ty, (parent.map fun plan => plan.member name ty).Vetted :=
    fun ty => ⟨hparent.plan.unary trivial, hparent.services⟩
  unfold resolve
  split
  · rename_i type _
    split
    · exact .fail _
    · rename_i field hfield
      exact .check fun bound _ => hfields parent field bound hparent fun service inputs run =>
        hservices type name field service inputs run hfield
  · split
    · exact .pure (hmember _)
    · exact .fail _
  · exact .pure (hmember _)
  · exact .fail _

mutual

/-- An expression compiles to a vetted node in a vetted context. -/
theorem compileExpr_vetted (hservices : scope.schema.WithoutServices)
    (hmethods : scope.methods.Vets) (hfields : fields.Vets) {context : Node}
    (hcontext : context.Vetted) :
    (expr : Expr) → Ensures (scope.compileExpr .parameter fields context expr) Node.Vetted
  | .literal value => by
    unfold compileExpr
    refine .pure ?_
    cases value with
    | integer n =>
      unfold Literal.node
      dsimp only
      split <;> exact ⟨.const _ _, rfl⟩
    | decimal _ | text _ | boolean _ | null => exact ⟨.const _ _, rfl⟩
  | .var name => by
    unfold compileExpr variableNode
    split
    · exact .fail _
    · exact .pure ⟨.param _ _, rfl⟩
  | .identifier name => by
    unfold compileExpr
    exact resolve_vetted hservices hfields hcontext name
  | .access object name => by
    unfold compileExpr
    exact .bind (compileExpr_vetted hservices hmethods hfields hcontext object)
      fun parent hparent => resolve_vetted hservices hfields hparent name
  | .invoke method arguments => by
    unfold compileExpr
    exact MethodLibrary.call_vetted hmethods hcontext hcontext
      (callArguments_vetted hservices hmethods hfields arguments)
  | .call receiver method arguments => by
    unfold compileExpr
    refine .bind (compileExpr_vetted hservices hmethods hfields hcontext receiver)
      fun node hnode => ?_
    exact MethodLibrary.call_vetted hmethods hnode hcontext
      (callArguments_vetted hservices hmethods hfields arguments)
  | .binary op left right => by
    unfold compileExpr
    refine .bind (compileExpr_vetted hservices hmethods hfields hcontext left) fun l hl => ?_
    refine .bind (compileExpr_vetted hservices hmethods hfields hcontext right) fun r hr => ?_
    exact .check fun plan hplan => .pure (hl.join hr (hl.plan.reconcile hr.plan hplan))
  | .conditional test testText yes no => by
    unfold compileExpr
    refine .bind (compileExpr_vetted hservices hmethods hfields hcontext test) fun t ht => ?_
    split
    · exact .fail _
    · rename_i condition hcondition
      refine .bind (compileExpr_vetted hservices hmethods hfields hcontext yes) fun y hy => ?_
      refine .bind (compileExpr_vetted hservices hmethods hfields hcontext no) fun n hn => ?_
      obtain ⟨hvetted, hty⟩ := ht.plan.asPredicate? hcondition
      generalize hbranches : y.plan.unifyBranches n.plan = branches
      obtain ⟨first, second, ty⟩ := branches
      have hadapt := Plan.Adapt.unifyBranches hbranches
      exact .pure ((ht.join hy hvetted).join hn (Plan.every_cond.mpr
        ⟨hty, hvetted, hy.plan.adapted hadapt.left, hn.plan.adapted hadapt.right⟩))

/-- The arguments of a call compile to vetted nodes. -/
theorem callArguments_vetted (hservices : scope.schema.WithoutServices)
    (hmethods : scope.methods.Vets) (hfields : fields.Vets) :
    (arguments : List Expr) →
      ∀ argument ∈ scope.callArguments .parameter fields arguments, argument.Vets
  | [] => by
    unfold callArguments
    exact fun _ h => absurd h List.not_mem_nil
  | expr :: rest => by
    unfold callArguments
    intro argument hmem
    rcases List.mem_cons.mp hmem with rfl | hrest
    · exact fun context hcontext => compileExpr_vetted hservices hmethods hfields hcontext expr
    · exact callArguments_vetted hservices hmethods hfields rest argument hrest

end

/-- A source text in a vetted context compiles to a vetted node. -/
theorem compileText_vetted (hservices : scope.schema.WithoutServices)
    (hmethods : scope.methods.Vets) (hfields : fields.Vets) (hcontext : context.Vetted)
    (source : String) : Ensures (scope.compileText .parameter fields context source) Node.Vetted :=
  .check fun expr _ => compileExpr_vetted hservices hmethods hfields hcontext expr

/-- A field on a vetted parent compiles to a vetted node if it is not one of a service. -/
theorem compileResolver_vetted {compile : String → Compile Node} {field : FieldDefinition}
    (hparent : parent.Vetted)
    (hfield : ∀ service inputs run, field.resolver ≠ .service service inputs run)
    (hcompile : ∀ source, Ensures (compile source) Node.Vetted) :
    Ensures (compileResolver compile parent field) Node.Vetted := by
  unfold compileResolver
  split
  · exact .pure ⟨hparent.plan.unary trivial, hparent.services⟩
  · exact hcompile _
  · rename_i service inputs run hresolver
    exact absurd hresolver (hfield service inputs run)

/-- Fields compile to vetted nodes at every depth. -/
theorem vets_compileField {schema : Schema} {methods : MethodLibrary}
    (hservices : schema.WithoutServices) (hmethods : methods.Vets) (depth : Nat)
    (vars : Entries Value) : (compileField .parameter schema methods depth vars).Vets := by
  induction depth generalizing vars with
  | zero =>
    intro parent field bound hparent hfield
    exact compileResolver_vetted hparent hfield fun _ => .tooDeep
  | succ depth ih =>
    intro parent field bound hparent hfield
    let inner : Scope := ⟨schema, methods, Entries.extend vars bound, depth⟩
    have hinner : inner.schema.WithoutServices := hservices
    exact compileResolver_vetted hparent hfield fun source =>
      compileText_vetted hinner hmethods (ih inner.vars) hparent source

/-- A source text compiles to a vetted node in the context of the host. -/
theorem compileSource_vetted (hservices : scope.schema.WithoutServices)
    (hmethods : scope.methods.Vets) (contextTy : Ty) (source : String) :
    Ensures (scope.compileSource (Scope.context contextTy) source) Node.Vetted :=
  compileText_vetted hservices hmethods
    (vets_compileField hservices hmethods scope.depth scope.vars) ⟨.param _ _, rfl⟩ source

end Scope

end TypedQuery
