import TypedQuery.Proofs.Query.Joining
import TypedQuery.Proofs.Splicing.Compiling

/-!
# Variables are captured once

Whatever is compiled keeps one value for each variable that it captures. So where two nodes are
joined, the plan of the second one finds its variables at its own values.
-/

namespace TypedQuery

open Halting

/-- A node keeps one value for each variable. -/
def Node.CapturesOnce (node : Node) : Prop :=
  (Entries.names node.constants).Nodup

/-- A node that takes over the variables of another one still keeps each once. -/
theorem Node.CapturesOnce.join {a : Node} (h : a.CapturesOnce) (b : Node) (plan : Plan) :
    (a.join b plan).CapturesOnce :=
  Entries.nodup_names_extend h

/-- What links are built on keeps its variables. -/
theorem Link.constants_of_overAll? {links : List Link} {node result : Node}
    (h : overAll? links node = some result) : result.constants = node.constants := by
  induction links generalizing result with
  | nil =>
    cases h
    rfl
  | cons link rest ih =>
    obtain ⟨below, hbelow, hover⟩ := Option.bind_eq_some_iff.mp h
    rw [← ih hbelow]
    unfold over? at hover
    split at hover
    · split at hover
      · cases hover
        rfl
      · cases hover
    · split at hover
      · cases hover
        rfl
      · cases hover
    · cases hover
      rfl

/-- An argument captures each variable once wherever it is compiled. -/
def CallArgument.CapturesOnce (argument : CallArgument) : Prop :=
  ∀ context : Node, context.CapturesOnce → Ensures (argument.compile context) Node.CapturesOnce

/-- A method captures each variable once if its receiver and its arguments do. -/
def Method.CapturesOnce (method : Method) : Prop :=
  ∀ (receiver caller : Node) (arguments : List CallArgument), receiver.CapturesOnce →
    caller.CapturesOnce → (∀ argument ∈ arguments, argument.CapturesOnce) →
      Ensures (method.apply receiver caller arguments) Node.CapturesOnce

/-- This is so for all methods of a library. -/
def MethodLibrary.CapturesOnce (library : MethodLibrary) : Prop :=
  ∀ name method, library.find? name = some method → method.CapturesOnce

/-- What the rule of a method is given captures each variable once. -/
structure MethodCall.CapturesOnce (call : MethodCall) : Prop where
  receiver : call.receiver.CapturesOnce
  inner : call.inner.CapturesOnce
  arguments : ∀ argument ∈ call.arguments, argument.CapturesOnce

namespace Method

variable {call : MethodCall} {method : Method}

/-- A method captures each variable once if its rule does. -/
theorem capturesOnce_of_build
    (h : ∀ call : MethodCall, call.CapturesOnce → Ensures (method.build call) Node.CapturesOnce) :
    method.CapturesOnce := by
  intro receiver caller arguments hreceiver hcaller harguments
  unfold apply
  cases method.context with
  | caller => exact h _ ⟨hreceiver, hcaller, harguments⟩
  | element =>
    dsimp only
    cases receiver.ty.element? with
    | none => exact .fail _
    | some element =>
      exact .bind Run.freshName_ensures fun name _ => h _ ⟨hreceiver, List.nodup_nil, harguments⟩

/-- An argument of a call captures each variable once. -/
theorem compileArgument_once (h : call.CapturesOnce) (index : Nat) :
    Ensures (call.compileArgument index) Node.CapturesOnce := by
  unfold MethodCall.compileArgument
  cases hargument : call.arguments[index]? with
  | none => exact .fail _
  | some argument =>
    exact h.arguments argument (List.mem_of_getElem? hargument) call.inner h.inner

/-- A filtered list captures each variable once. -/
theorem filtered_once (h : call.CapturesOnce) : Ensures (filtered call) Node.CapturesOnce := by
  unfold filtered
  split
  · exact .pure h.receiver
  · exact .bind (.of_forall (predicate call) fun _ => trivial) fun test _ =>
      .pure (h.receiver.join test _)

/-- What is made of a filtered list captures each variable once. -/
theorem finished_once (h : call.CapturesOnce) (finish : Plan → Plan) :
    Ensures (do let node ← filtered call; return node.map finish) Node.CapturesOnce :=
  .bind (filtered_once h) fun _ hnode => .pure hnode

/-- A part of a list captures each variable once. -/
theorem page_once (h : call.CapturesOnce) (cut : Plan → Plan → Plan) :
    Ensures (page cut call) Node.CapturesOnce := by
  refine .bind (.of_forall (call.compileArgument 0) fun _ => trivial) fun count _ => ?_
  split
  · exact .fail _
  · exact .pure (h.receiver.join count _)

/-- A sorted list captures each variable once. -/
theorem orderBy_once (h : call.CapturesOnce) (descending : Bool) :
    Ensures (orderBy descending call) Node.CapturesOnce := by
  refine .bind (.of_forall (call.compileArgument 0) fun _ => trivial) fun key _ => ?_
  split
  · exact .pure (h.receiver.join key _)
  · exact .fail _

/-- Membership in a list captures each variable once. -/
theorem inSet_once (h : call.CapturesOnce) : Ensures (inSet call) Node.CapturesOnce := by
  refine .check fun set _ => .check fun ty _ => ?_
  dsimp only
  generalize (if ty = .string then call.receiver.ty.isString
    else call.receiver.ty.intKind?.isSome) = fits
  split
  · exact .fail _
  · exact .pure h.receiver

/-- A test of a text captures each variable once. -/
theorem textTest_once (h : call.CapturesOnce) (test : TextTest) :
    Ensures (textTest test call) Node.CapturesOnce := by
  refine .bind (.of_forall (call.compileArgument 0) fun _ => trivial) fun argument _ => ?_
  split
  · exact .pure (h.receiver.join argument _)
  · exact .fail _

/-- A negation captures each variable once. -/
theorem not_once (h : call.CapturesOnce) : Ensures (not call) Node.CapturesOnce := by
  refine .bind (compileArgument_once h 0) fun operand hoperand => ?_
  split
  · exact .pure hoperand
  · exact .fail _

/-- Every standard method captures each variable once. -/
theorem capturesOnce_of_mem_standard (hmem : method ∈ standard) : method.CapturesOnce := by
  refine capturesOnce_of_build fun call h => ?_
  simp only [standard, List.mem_cons, List.not_mem_nil, or_false] at hmem
  rcases hmem with rfl | rfl | rfl | rfl | rfl | rfl | rfl | rfl | rfl | rfl | rfl | rfl | rfl |
    rfl | rfl | rfl
  · exact filtered_once h
  · exact filtered_once h
  · exact finished_once h _
  · exact finished_once h _
  · exact finished_once h _
  · exact finished_once h _
  · exact page_once h _
  · exact page_once h _
  · exact orderBy_once h _
  · exact orderBy_once h _
  · exact inSet_once h
  · exact textTest_once h _
  · exact textTest_once h _
  · exact textTest_once h _
  · exact textTest_once h _
  · exact not_once h

end Method

namespace MethodLibrary

variable {library : MethodLibrary}

/-- The standard methods capture each variable once. -/
theorem capturesOnce_standard : standard.CapturesOnce :=
  fun _ _ h => Method.capturesOnce_of_mem_standard (mem_of_find?_ofList h)

/-- A call of a method captures each variable once. -/
theorem call_once (hlibrary : library.CapturesOnce) {receiver caller : Node} {name : String}
    {arguments : List CallArgument} (hreceiver : receiver.CapturesOnce)
    (hcaller : caller.CapturesOnce) (harguments : ∀ argument ∈ arguments, argument.CapturesOnce) :
    Ensures (library.call receiver name arguments caller) Node.CapturesOnce := by
  unfold call
  cases hfind : library.find? name with
  | none => exact .fail _
  | some method =>
    have hmethod := hlibrary name method hfind
    refine .check fun _ _ => ?_
    split
    · intro session result final hgraft
      obtain ⟨links, list, hchain⟩ := Plan.exists_chain_of_graft _ hgraft
      obtain ⟨made, hmade, hover⟩ := hchain.graft_eq_ok.mp hgraft
      unfold Node.CapturesOnce
      rw [Link.constants_of_overAll? hover]
      exact hmethod { receiver with plan := list } caller arguments hreceiver hcaller harguments
        _ _ _ hmade
    · exact hmethod receiver caller arguments hreceiver hcaller harguments

end MethodLibrary

/-- Fields of objects capture each variable once. -/
def FieldCompiler.CapturesOnce (fields : FieldCompiler) : Prop :=
  ∀ (parent : Node) (field : FieldDefinition) (bound : Entries Value),
    parent.CapturesOnce → Ensures (fields parent field bound) Node.CapturesOnce

namespace Scope

variable {scope : Scope} {fields : FieldCompiler} {parent context : Node}

/-- A resolved name captures each variable once. -/
theorem resolve_once (hfields : fields.CapturesOnce) (hparent : parent.CapturesOnce)
    (name : String) : Ensures (scope.resolve fields parent name) Node.CapturesOnce := by
  unfold resolve
  split
  · split
    · exact .fail _
    · exact .check fun bound _ => hfields parent _ bound hparent
  · split
    · exact .pure hparent
    · exact .fail _
  · exact .pure hparent
  · exact .fail _

mutual

/-- An expression captures each variable once. -/
theorem compileExpr_once (hmethods : scope.methods.CapturesOnce) (hfields : fields.CapturesOnce)
    {context : Node} (hcontext : context.CapturesOnce) :
    (expr : Expr) → Ensures (scope.compileExpr .parameter fields context expr) Node.CapturesOnce
  | .literal value => by
    unfold compileExpr
    exact .pure List.nodup_nil
  | .var name => by
    unfold compileExpr variableNode
    split
    · exact .fail _
    · exact .pure (List.nodup_singleton _)
  | .identifier name => by
    unfold compileExpr
    exact resolve_once hfields hcontext name
  | .access object name => by
    unfold compileExpr
    exact .bind (compileExpr_once hmethods hfields hcontext object) fun _ hparent =>
      resolve_once hfields hparent name
  | .invoke method arguments => by
    unfold compileExpr
    exact MethodLibrary.call_once hmethods hcontext hcontext
      (callArguments_once hmethods hfields arguments)
  | .call receiver method arguments => by
    unfold compileExpr
    exact .bind (compileExpr_once hmethods hfields hcontext receiver) fun _ hreceiver =>
      MethodLibrary.call_once hmethods hreceiver hcontext
        (callArguments_once hmethods hfields arguments)
  | .binary op left right => by
    unfold compileExpr
    exact .bind (compileExpr_once hmethods hfields hcontext left) fun l hl =>
      .bind (.of_forall _ fun _ => trivial) fun r _ => .check fun plan _ => .pure (hl.join r plan)
  | .conditional test testText yes no => by
    unfold compileExpr
    refine .bind (compileExpr_once hmethods hfields hcontext test) fun t ht => ?_
    split
    · exact .fail _
    · exact .bind (.of_forall _ fun _ => trivial) fun y _ =>
        .bind (.of_forall _ fun _ => trivial) fun n _ => .pure ((ht.join y _).join n _)

/-- The arguments of a call capture each variable once wherever they are compiled. -/
theorem callArguments_once (hmethods : scope.methods.CapturesOnce)
    (hfields : fields.CapturesOnce) : (arguments : List Expr) →
      ∀ argument ∈ scope.callArguments .parameter fields arguments, argument.CapturesOnce
  | [] => by
    unfold callArguments
    exact fun _ h => absurd h List.not_mem_nil
  | expr :: rest => by
    unfold callArguments
    refine List.forall_mem_cons.mpr ⟨fun context hcontext => ?_, ?_⟩
    · exact compileExpr_once hmethods hfields hcontext expr
    · exact callArguments_once hmethods hfields rest

end

/-- The inputs of a computed field capture each variable once. -/
theorem compileInputs_once {compile : String → Compile Node} {inputs : List String}
    (hparent : parent.CapturesOnce) :
    Ensures (compileInputs compile parent inputs) fun result => result.1.CapturesOnce := by
  induction inputs generalizing parent with
  | nil => exact .pure hparent
  | cons source rest ih =>
    unfold compileInputs
    exact .bind (.of_forall (compile source) fun _ => trivial) fun input _ =>
      .bind (ih (hparent.join input _)) fun _ hnode => .pure hnode

/-- A computed field captures each variable once. -/
theorem compileResolver_once {compile : String → Compile Node}
    (hcompile : ∀ source, Ensures (compile source) Node.CapturesOnce)
    (hparent : parent.CapturesOnce) (field : FieldDefinition) :
    Ensures (compileResolver compile parent field) Node.CapturesOnce := by
  unfold compileResolver
  split
  · exact .pure hparent
  · exact hcompile _
  · exact .bind (compileInputs_once hparent) fun _ hnode => .pure hnode

/-- Fields capture each variable once at every depth. -/
theorem compileField_once {schema : Schema} {methods : MethodLibrary}
    (hmethods : methods.CapturesOnce) (depth : Nat) : ∀ vars : Entries Value,
      (compileField .parameter schema methods depth vars).CapturesOnce := by
  induction depth with
  | zero =>
    intro vars parent field bound hparent
    exact compileResolver_once (fun _ => .tooDeep) hparent field
  | succ depth ih =>
    intro vars parent field bound hparent
    refine compileResolver_once (fun source => .check fun expr _ => ?_) hparent field
    exact compileExpr_once hmethods (ih _) hparent expr

/-- The fields of the schema capture each variable once. -/
theorem fieldCompiler_once (hmethods : scope.methods.CapturesOnce) :
    (scope.fieldCompiler .parameter).CapturesOnce :=
  compileField_once hmethods scope.depth scope.vars

/-- A list to which arguments of the sequence are applied captures each variable once. -/
theorem applySequence_once (hmethods : scope.methods.CapturesOnce) {caller node : Node}
    {arguments : List (String × Value)} {names : List String} (hcaller : caller.CapturesOnce)
    (hnode : node.CapturesOnce) :
    Ensures (scope.applySequence .parameter arguments caller names node) Node.CapturesOnce := by
  induction names generalizing node with
  | nil => exact .pure hnode
  | cons name rest ih =>
    unfold applySequence
    split
    · exact ih hnode
    · exact ih hnode
    · exact .check fun ⟨method, expr⟩ _ =>
        .bind (MethodLibrary.call_once hmethods hnode hcaller
          (callArguments_once hmethods (fieldCompiler_once hmethods) [expr])) fun next hnext =>
            ih hnext

/-- A field of a document captures each variable once. -/
theorem compileBareField_once (hmethods : scope.methods.CapturesOnce) {claims : Claims}
    (hparent : parent.CapturesOnce) {name : String} {arguments : List (String × Argument)} :
    Ensures (scope.compileBareField .parameter claims parent name arguments)
      Node.CapturesOnce := by
  have hfields : (scope.fieldCompiler .parameter).CapturesOnce := fieldCompiler_once hmethods
  have hfinish : ∀ node : Node, node.CapturesOnce →
      Ensures (do Halting.ofExcept (scope.schema.authorizeTy claims node.ty); return node :
        Compile Node) Node.CapturesOnce := fun node hnode => .check fun _ _ => .pure hnode
  unfold compileBareField
  split
  · refine .bind ?_ hfinish
    unfold compileObjectField
    split
    · exact .fail _
    · exact .check fun _ _ => .check fun values _ => .check fun bound _ =>
        .bind (hfields parent _ bound hparent) fun node hnode =>
          applySequence_once hmethods hparent hnode
  · split
    · exact .bind (resolve_once hfields hparent name) hfinish
    · exact .bind (.fail _) hfinish

end Scope

namespace Query

variable {a b : Node} {plan : Plan} {name : String}

/-- In a joined node, the variables of the second one have its values. -/
theorem lookup_environmentOf_join_right (h : a.CapturesOnce)
    (hname : name ∈ Entries.names b.constants) (store other : Value) :
    (environmentOf (a.join b plan) store).lookup (constantName name) =
      (environmentOf b other).lookup (constantName name) := by
  let bound : Entries Value → Entries Value :=
    List.map fun entry => (constantName entry.1, entry.2)
  have hnodup : (Entries.names (bound a.constants)).Nodup := by
    have hnames : Entries.names (bound a.constants) =
        (Entries.names a.constants).map constantName := by
      unfold Entries.names
      rw [List.map_map, List.map_map]
      rfl
    rw [hnames]
    exact h.map fun _ _ => constantName_injective
  obtain ⟨entry, hentry, rfl⟩ := List.mem_map.mp hname
  obtain ⟨value, hvalue⟩ : ∃ value,
      Entries.find? (bound b.constants).reverse (constantName entry.1) = some value :=
    Entries.exists_find?_of_mem (List.mem_reverse.mpr (List.mem_map.mpr ⟨entry, hentry, rfl⟩))
  have hjoined : Entries.find? (bound (Entries.extend a.constants b.constants)).reverse
      (constantName entry.1) = some value := by
    have hextend : bound (Entries.extend a.constants b.constants) =
        Entries.extend (bound a.constants) (bound b.constants) := map_extend _ _
    rw [hextend, Entries.find?_reverse_of_nodup (Entries.nodup_names_extend hnodup),
      Entries.find?_extend_eq_or, hvalue]
    rfl
  have hleft : (environmentOf (a.join b plan) store).lookup (constantName entry.1) =
      some value := by
    unfold environmentOf
    rw [List.lookup_append]
    exact congrArg (Option.or · _) hjoined
  have hright : (environmentOf b other).lookup (constantName entry.1) = some value := by
    unfold environmentOf
    rw [List.lookup_append]
    exact congrArg (Option.or · _) hvalue
  exact hleft.trans hright.symm

end Query

end TypedQuery
