import TypedQuery.Method.Standard
import TypedQuery.Proofs.Plan.Grafting
import TypedQuery.Proofs.Plan.Reconciling

/-!
# Methods build well-typed plans

A method is sound if it makes a good node of a good receiver and of arguments that compile to
good nodes wherever they are compiled. What a sound method makes of a list can replace the
list in a chain, so calls of sound methods are sound on every receiver. The standard methods
are sound.
-/

namespace TypedQuery

open Halting

variable {A : Assumptions} {Γ : Typing} {receiver caller node : Node}

/-- An argument compiles to a good node in every good context. -/
def CallArgument.Good (A : Assumptions) (argument : CallArgument) : Prop :=
  ∀ (Γ : Typing) (context : Node), context.Good A Γ →
    Ensures (argument.compile context) fun node => node.Good A Γ

/-- A method makes good nodes of good nodes. If it needs a list, the result can replace the
list. -/
def Method.Sound (A : Assumptions) (method : Method) : Prop :=
  ∀ (Γ : Typing) (receiver caller : Node) (arguments : List CallArgument),
    receiver.Good A Γ → caller.Good A Γ → (∀ argument ∈ arguments, argument.Good A) →
    Ensures (method.apply receiver caller arguments) fun node =>
      node.Good A Γ ∧ (method.needsSequence = true → receiver.ty.isSequence = true →
        node.Replaces A Γ receiver receiver.ty)

/-- All methods of a library are sound. -/
def MethodLibrary.Sound (A : Assumptions) (library : MethodLibrary) : Prop :=
  ∀ name method, library.find? name = some method → method.Sound A

/-- A call of a sound method makes a good node. -/
theorem MethodLibrary.call_ensures {library : MethodLibrary} {name : String}
    {arguments : List CallArgument} (hlibrary : library.Sound A) (hreceiver : receiver.Good A Γ)
    (hcaller : caller.Good A Γ) (harguments : ∀ argument ∈ arguments, argument.Good A) :
    Ensures (library.call receiver name arguments caller) fun node => node.Good A Γ := by
  unfold call
  cases hfind : library.find? name with
  | none => exact .fail _
  | some method =>
    have hmethod := hlibrary name method hfind
    refine .check fun _ _ => ?_
    split
    · rename_i hgraft
      simp only [Bool.and_eq_true] at hgraft
      refine .mono (Plan.graft_ensures receiver ?_ receiver.plan hreceiver.typed hreceiver.chain)
        fun node hnode => hnode.good
      intro list hlist htyped hchain
      refine .mono (hmethod Γ { receiver with plan := list } caller arguments
        ⟨⟨hreceiver.known, htyped⟩, hchain⟩ hcaller harguments) fun node hnode => ?_
      have hreplaces := hnode.2 hgraft.1 hlist
      exact ⟨hreplaces.good, ⟨hreplaces.extended.constants, hreplaces.extended.services⟩,
        hreplaces.follows, hreplaces.sameType⟩
    · exact .mono (hmethod Γ receiver caller arguments hreceiver hcaller harguments)
        fun node hnode => hnode.1

/-- What the rule of a method may rely on: a good receiver, a good context of the arguments,
and arguments that compile to good nodes. -/
structure MethodCall.Good (A : Assumptions) (Γ Δ : Typing) (call : MethodCall) : Prop where
  receiver : call.receiver.Good A Γ
  inner : call.inner.Good A Δ
  arguments : ∀ argument ∈ call.arguments, argument.Good A

/-- The arguments are compiled on an item of the receiver, which is a list. -/
structure MethodCall.OnItems (A : Assumptions) (Γ : Typing) (call : MethodCall) (item : Ty) : Prop
    extends MethodCall.Good A Γ (.only call.elementName item) call where
  source : call.receiver.ty = .list item
  separate : ∀ x, call.elementName ≠ constantName x

/-- A node made of a list that has the type of the list replaces it. -/
theorem Node.Good.replaces (h : node.Good A Γ) (hextends : node.Extends receiver)
    (hty : node.ty = receiver.ty) : node.Replaces A Γ receiver receiver.ty :=
  ⟨h, hextends, fun _ => Or.inl hty, fun _ => Or.inl hty.symm⟩

/-- The names of captured variables are not those of fresh parameters. -/
theorem constantName_ne_fresh (n : Nat) (x : String) : "p" ++ toString n ≠ constantName x := by
  intro h
  have htoList : ("p" ++ toString n).toList.head? = (constantName x).toList.head? := by rw [h]
  simp [constantName] at htoList

/-- The name of the context is not one of a captured variable. -/
theorem contextName_ne_constantName (x : String) : contextName ≠ constantName x := by
  intro h
  have htoList : contextName.toList.head? = (constantName x).toList.head? := by rw [h]
  simp [contextName, constantName] at htoList

namespace Method

variable {call : MethodCall} {Δ : Typing} {method : Method} {item : Ty}

/-- A method on the items of a list is sound if its rule makes nodes that replace the list. -/
theorem sound_of_onItems (hcontext : method.context = .element)
    (h : ∀ (Γ : Typing) (call : MethodCall) (item : Ty), call.OnItems A Γ item →
      Ensures (method.build call) fun node =>
        node.Replaces A Γ call.receiver call.receiver.ty) : method.Sound A := by
  intro Γ receiver caller arguments hreceiver hcaller harguments
  unfold apply
  rw [hcontext]
  dsimp only
  cases helement : receiver.ty.element? with
  | none => exact .fail _
  | some element =>
    have hsource : receiver.ty = .list element := by
      cases hty : receiver.ty with
      | list other =>
        rw [hty] at helement
        cases helement
        rfl
      | _ =>
        rw [hty] at helement
        cases helement
    refine .bind Run.freshName_ensures fun name hname => ?_
    obtain ⟨n, rfl⟩ := hname
    refine .mono (h Γ ⟨method.name, receiver, .ofPlan (.param element ("p" ++ toString n)),
      arguments⟩ element ?_) fun node hnode => ⟨hnode.good, fun _ _ => hnode⟩
    exact {
      receiver := hreceiver
      inner := ⟨⟨fun _ h => absurd h List.not_mem_nil, .param (Or.inl ⟨rfl, rfl⟩)⟩, rfl⟩
      arguments := harguments
      source := hsource
      separate := constantName_ne_fresh n }

/-- A method whose arguments are compiled where it is called is sound if its rule makes good
nodes, which replace the receiver if it has to be a list. -/
theorem sound_of_atCaller (hcontext : method.context = .caller)
    (h : ∀ (Γ : Typing) (call : MethodCall), call.Good A Γ Γ →
      Ensures (method.build call) fun node => node.Good A Γ ∧
        (method.onSequence = true → node.Replaces A Γ call.receiver call.receiver.ty)) :
    method.Sound A := by
  intro Γ receiver caller arguments hreceiver hcaller harguments
  unfold apply
  rw [hcontext]
  refine .mono (h Γ ⟨method.name, receiver, caller, arguments⟩ ⟨hreceiver, hcaller, harguments⟩)
    fun node hnode => ⟨hnode.1, fun hneeds _ => hnode.2 ?_⟩
  simpa [needsSequence, hcontext] using hneeds

/-- An argument of a call compiles to a good node. -/
theorem compileArgument_ensures (hcall : call.Good A Γ Δ) (index : Nat) :
    Ensures (call.compileArgument index) fun node => node.Good A Δ := by
  unfold MethodCall.compileArgument
  split
  · rename_i argument hargument
    exact hcall.arguments argument (List.mem_of_getElem? hargument) Δ call.inner hcall.inner
  · exact .fail _

/-- The predicate of a call compiles to a sound node. -/
theorem predicate_ensures (hcall : call.Good A Γ Δ) :
    Ensures (predicate call) fun node => node.Sound A Δ := by
  refine .bind (compileArgument_ensures hcall 0) fun node hnode => ?_
  split
  · rename_i hplan
    exact .pure ⟨hnode.known, hnode.typed.asPredicate? hplan⟩
  · exact .fail _

/-- The filtered receiver is a list of the same type. -/
theorem filtered_ensures (hcall : call.OnItems A Γ item) :
    Ensures (filtered call) fun node =>
      node.Good A Γ ∧ node.Extends call.receiver ∧ node.ty = call.receiver.ty := by
  unfold filtered
  split
  · exact .pure ⟨hcall.receiver, .refl _, rfl⟩
  · refine .bind (predicate_ensures hcall.toGood) fun test htest => .pure ?_
    have hsource := hcall.receiver.typed.extend (Node.join_extends_left call.receiver test
      (.filter call.receiver.plan call.elementName test.plan))
    have hbody := htest.typed.body (Γ := Γ) (Node.join_extends_right call.receiver test
      (.filter call.receiver.plan call.elementName test.plan)) hcall.separate
    exact ⟨⟨.join hcall.receiver.toSound htest (.bind hsource hbody ⟨hcall.source, rfl⟩), rfl⟩,
      Node.join_extends_left _ _ _, rfl⟩

/-- Reducing a list makes a node that can replace it. -/
theorem reduce_ensures (reduction : Reduction) (hcall : call.OnItems A Γ item) :
    Ensures (reduce reduction call) fun node =>
      node.Replaces A Γ call.receiver call.receiver.ty := by
  refine .bind (filtered_ensures hcall) fun node ⟨hnode, hextends, hty⟩ => .pure ?_
  have hlist : call.receiver.ty.isSequence = true := by
    rw [hcall.source]
    rfl
  have htyped : node.Types A Γ (node.plan.reduce reduction) := .unary hnode.typed rfl
  have hreduced : (node.plan.reduce reduction).ty = Plan.reducedTy call.receiver.ty reduction :=
    congrArg (Plan.reducedTy · reduction) hty
  exact {
    good := ⟨⟨hnode.known, htyped⟩, hnode.chain⟩
    extended := ⟨hextends.constants, hextends.services⟩
    follows := fun _ => Or.inr ⟨reduction, hreduced⟩
    sameType := fun h => absurd hlist (by simp [h]) }

/-- Removing repetitions makes a node that can replace the list. -/
theorem distinct_ensures (hcall : call.OnItems A Γ item) :
    Ensures (distinct call) fun node => node.Replaces A Γ call.receiver call.receiver.ty := by
  refine .bind (filtered_ensures hcall) fun node ⟨hnode, hextends, hty⟩ => .pure ?_
  have htyped : node.Types A Γ node.plan.distinct := .unary hnode.typed rfl
  have hgood : (node.map Plan.distinct).Good A Γ := ⟨⟨hnode.known, htyped⟩, rfl⟩
  exact hgood.replaces ⟨hextends.constants, hextends.services⟩ hty

/-- Sorting makes a node that can replace the list. -/
theorem orderBy_ensures (descending : Bool) (hcall : call.OnItems A Γ item) :
    Ensures (orderBy descending call) fun node =>
      node.Replaces A Γ call.receiver call.receiver.ty := by
  refine .bind (compileArgument_ensures hcall.toGood 0) fun key hkey => ?_
  split
  · have hsource := hcall.receiver.typed.extend (Node.join_extends_left call.receiver key
      (call.receiver.plan.orderBy call.elementName key.plan descending))
    have hbody := hkey.typed.body (Γ := Γ) (Node.join_extends_right call.receiver key
      (call.receiver.plan.orderBy call.elementName key.plan descending)) hcall.separate
    refine .pure (Node.Good.replaces ?_ (Node.join_extends_left _ _ _) rfl)
    exact ⟨.join hcall.receiver.toSound hkey.toSound (.bind hsource hbody ⟨hcall.source, rfl⟩), rfl⟩
  · exact .fail _

/-- A cut keeps the type of the list. -/
theorem page_ensures {op : BinaryOp} (hop : op = .take ∨ op = .skip) (hcall : call.Good A Γ Γ) :
    Ensures (page (fun source count => .binary source.ty op source count) call) fun node =>
      node.Replaces A Γ call.receiver call.receiver.ty := by
  refine .bind (compileArgument_ensures hcall 0) fun count hcount => ?_
  split
  · exact .fail _
  · refine .pure (Node.Good.replaces ?_ (Node.join_extends_left _ _ _) rfl)
    refine ⟨.join hcall.receiver.toSound hcount.toSound (.binary ?_ ?_ ?_), rfl⟩
    · exact hcall.receiver.typed.extend (Node.join_extends_left _ _ _)
    · exact (hcount.typed.extend (Node.join_extends_right _ _ _)).convertOperand rfl
    · rcases hop with rfl | rfl <;> rfl

/-- Membership in a list makes a good node. -/
theorem inSet_ensures (hcall : call.Good A Γ Γ) :
    Ensures (inSet call) fun node => node.Good A Γ := by
  refine .check fun set _ => .check fun ty _ => ?_
  have htyped : call.receiver.Types A Γ (call.receiver.plan.inSet set) :=
    .unary hcall.receiver.typed rfl
  have hgood : (call.receiver.map fun plan => plan.inSet set).Good A Γ :=
    ⟨⟨hcall.receiver.known, htyped⟩, rfl⟩
  dsimp only
  generalize (if ty = .string then call.receiver.ty.isString
    else call.receiver.ty.intKind?.isSome) = fits
  split
  · exact .fail _
  · exact .pure hgood

/-- A test of a text makes a good node. -/
theorem textTest_ensures (test : TextTest) (hcall : call.Good A Γ Γ) :
    Ensures (textTest test call) fun node => node.Good A Γ := by
  refine .bind (compileArgument_ensures hcall 0) fun argument hargument => ?_
  split
  · refine .pure ⟨.join hcall.receiver.toSound hargument.toSound (.binary ?_ ?_ rfl), rfl⟩
    · exact hcall.receiver.typed.extend (Node.join_extends_left _ _ _)
    · exact hargument.typed.extend (Node.join_extends_right _ _ _)
  · exact .fail _

/-- A negation makes a good node. -/
theorem not_ensures (hcall : call.Good A Γ Γ) : Ensures (not call) fun node => node.Good A Γ := by
  refine .bind (compileArgument_ensures hcall 0) fun operand hoperand => ?_
  split
  · rename_i hplan
    exact .pure ⟨⟨hoperand.known, .unary (hoperand.typed.asPredicate? hplan) rfl⟩, rfl⟩
  · exact .fail _

/-- Every standard method is sound. -/
theorem sound_of_mem_standard (hmem : method ∈ standard) : method.Sound A := by
  have hplain : ∀ {build : MethodCall → Compile Node} {name : String} {arity : Arity},
      (∀ (Γ : Typing) (call : MethodCall), call.Good A Γ Γ →
        Ensures (build call) fun node => node.Good A Γ) →
      Method.Sound A ⟨name, arity, .caller, false, build⟩ := by
    intro build name arity h
    exact sound_of_atCaller rfl fun Γ call hcall =>
      .mono (h Γ call hcall) fun node hnode => ⟨hnode, nofun⟩
  have hpage : ∀ {op : BinaryOp} {name : String} {arity : Arity}, op = .take ∨ op = .skip →
      Method.Sound A ⟨name, arity, .caller, true,
        page fun source count => .binary source.ty op source count⟩ := by
    intro op name arity hop
    exact sound_of_atCaller rfl fun Γ call hcall =>
      .mono (page_ensures hop hcall) fun node hnode => ⟨hnode.good, fun _ => hnode⟩
  have hfiltered : ∀ {name : String} {arity : Arity},
      Method.Sound A ⟨name, arity, .element, false, filtered⟩ := by
    intro name arity
    exact sound_of_onItems rfl fun Γ call item hcall =>
      .mono (filtered_ensures hcall) fun node hnode => hnode.1.replaces hnode.2.1 hnode.2.2
  simp only [standard, List.mem_cons, List.not_mem_nil, or_false] at hmem
  rcases hmem with rfl | rfl | rfl | rfl | rfl | rfl | rfl | rfl | rfl | rfl | rfl | rfl | rfl |
    rfl | rfl | rfl
  · exact hfiltered
  · exact hfiltered
  · exact sound_of_onItems rfl fun Γ call item hcall => reduce_ensures _ hcall
  · exact sound_of_onItems rfl fun Γ call item hcall => reduce_ensures _ hcall
  · exact sound_of_onItems rfl fun Γ call item hcall => reduce_ensures _ hcall
  · exact sound_of_onItems rfl fun Γ call item hcall => distinct_ensures hcall
  · exact hpage (Or.inl rfl)
  · exact hpage (Or.inr rfl)
  · exact sound_of_onItems rfl fun Γ call item hcall => orderBy_ensures _ hcall
  · exact sound_of_onItems rfl fun Γ call item hcall => orderBy_ensures _ hcall
  · exact hplain fun Γ call hcall => inSet_ensures hcall
  · exact hplain fun Γ call hcall => textTest_ensures _ hcall
  · exact hplain fun Γ call hcall => textTest_ensures _ hcall
  · exact hplain fun Γ call hcall => textTest_ensures _ hcall
  · exact hplain fun Γ call hcall => textTest_ensures _ hcall
  · exact hplain fun Γ call hcall => not_ensures hcall

end Method

namespace MethodLibrary

variable {library : MethodLibrary} {method : Method} {methods : List Method} {name : String}

/-- A library of a list of methods holds nothing else. -/
theorem mem_of_find?_ofList (h : (ofList methods).find? name = some method) : method ∈ methods := by
  have hfold : ∀ (more : List Method) (library : MethodLibrary), ∀ entry ∈
      (more.foldl register library).methods, entry.2 ∈ more ∨ entry ∈ library.methods := by
    intro more
    induction more with
    | nil => exact fun library entry hentry => Or.inr hentry
    | cons first rest ih =>
      intro library entry hentry
      rcases ih _ entry hentry with hrest | hold
      · exact Or.inl (List.mem_cons_of_mem _ hrest)
      · rcases Entries.mem_of_mem_insert hold with rfl | hold
        · exact Or.inl List.mem_cons_self
        · exact Or.inr hold
  exact (hfold methods empty _ (Entries.mem_of_find? h)).resolve_right List.not_mem_nil

/-- The library of the standard methods is sound whatever is assumed of the world. -/
theorem sound_standard (A : Assumptions) : standard.Sound A :=
  fun _ _ h => Method.sound_of_mem_standard (mem_of_find?_ofList h)

end MethodLibrary

end TypedQuery
