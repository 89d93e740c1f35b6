import TypedQuery.Proofs.Method.Typing

/-!
# More depth

A compilation that is allowed to go deeper into computed fields does the same, except where the
other one has stopped because fields refer to each other too deeply. What a compilation comes to at
some depth it comes to at every larger depth.
-/

namespace TypedQuery

open Halting

namespace Halting

variable {σ ε ε' α β : Type}

/-- What one computation settles, a result or a failure, the other one settles alike. Nothing is
said where the first one goes too deep. -/
def Settles (run other : Halting σ ε α) : Prop :=
  ∀ state, (∃ final, run state = .error .depth final) ∨ other state = run state

namespace Settles

variable {run other : Halting σ ε α}

/-- A computation settles what it settles. -/
theorem refl (run : Halting σ ε α) : Settles run run :=
  fun _ => .inr rfl

/-- A computation that goes too deep settles nothing. -/
theorem tooDeep (other : Halting σ ε α) : Settles Halting.tooDeep other :=
  fun state => .inl ⟨state, rfl⟩

/-- Computations one after another settle alike what each of them does. -/
theorem bind {next next' : α → Halting σ ε β} (h : Settles run other)
    (hnext : ∀ result, Settles (next result) (next' result)) :
    Settles (run >>= next) (other >>= next') := by
  intro state
  rcases h state with ⟨final, hdeep⟩ | heq
  · exact .inl ⟨final, bind_of_error hdeep⟩
  · cases hrun : run state with
    | ok result between =>
      rw [hrun] at heq
      rw [bind_of_ok hrun, bind_of_ok heq]
      exact hnext result between
    | error halt final =>
      rw [hrun] at heq
      rw [bind_of_error hrun, bind_of_error heq]
      exact .inr rfl

/-- Both go on from the same computation. -/
theorem after (first : Halting σ ε α) {next next' : α → Halting σ ε β}
    (hnext : ∀ result, Settles (next result) (next' result)) :
    Settles (first >>= next) (first >>= next') :=
  bind (refl first) hnext

/-- The first one does not go too deep, so that both come to the same. -/
theorem eq_of_ended (h : Settles run other) {state : σ}
    (hended : ∀ final, run state ≠ .error .depth final) : other state = run state := by
  rcases h state with ⟨final, hdeep⟩ | heq
  · exact absurd hdeep (hended final)
  · exact heq

end Settles

end Halting

/-- Two arguments are the same expression, and what the first one compiles to, the other one does
too. -/
structure CallArgument.Settles (argument other : CallArgument) : Prop where
  expr : argument.expr = other.expr
  compile : ∀ context, Halting.Settles (argument.compile context) (other.compile context)

/-- A method goes no deeper than its arguments do. -/
def Method.Level (method : Method) : Prop :=
  ∀ (receiver caller : Node) (arguments others : List CallArgument),
    List.Forall₂ CallArgument.Settles arguments others →
      Halting.Settles (method.apply receiver caller arguments)
        (method.apply receiver caller others)

/-- All methods of a library go no deeper than their arguments do. -/
def MethodLibrary.Level (library : MethodLibrary) : Prop :=
  ∀ name method, library.find? name = some method → method.Level

namespace Plan

/-- A graft goes no deeper than what is grafted. -/
theorem graft_settles {method : String} {root : Ty} {scion scion' : Plan → Compile Node}
    (hscion : ∀ list, Halting.Settles (scion list) (scion' list)) :
    (plan : Plan) →
      Halting.Settles (plan.graft method root scion) (plan.graft method root scion') := by
  intro plan
  unfold graft
  by_cases hsequence : plan.ty.isSequence = true
  · rw [if_pos hsequence, if_pos hsequence]
    exact hscion plan
  · rw [if_neg hsequence, if_neg hsequence]
    cases plan with
    | unary ty op operand =>
      dsimp only
      split
      · exact .bind (graft_settles hscion operand) fun node => .refl _
      · exact .refl _
    | bind ty binder source name body =>
      cases binder with
      | given => exact .bind (graft_settles hscion source) fun node => .refl _
      | filter | project | orderBy _ => exact .refl _
    | call ty name service? run arguments =>
      cases arguments with
      | nil => exact .refl _
      | cons first rest => exact .bind (graft_settles hscion first) fun node => .refl _
    | const _ _ | param _ _ | binary _ _ _ _ | cond _ _ _ _ | record _ _ _ => exact .refl _

end Plan

/-- Two calls are the same, but that the arguments of the second one may go deeper. -/
structure MethodCall.Settles (call other : MethodCall) : Prop where
  name : call.name = other.name
  receiver : call.receiver = other.receiver
  inner : call.inner = other.inner
  arguments : List.Forall₂ CallArgument.Settles call.arguments other.arguments

namespace Method

variable {call other : MethodCall}

/-- A method whose rule goes no deeper than its arguments. -/
theorem level_of_build {method : Method}
    (h : ∀ call other : MethodCall, call.Settles other →
      Halting.Settles (method.build call) (method.build other)) : method.Level := by
  intro receiver caller arguments others harguments
  unfold apply
  cases method.context with
  | caller => exact h _ _ ⟨rfl, rfl, rfl, harguments⟩
  | element =>
    dsimp only
    split
    · exact .refl _
    · exact .after _ fun name => h _ _ ⟨rfl, rfl, rfl, harguments⟩

/-- An argument goes no deeper in a call than it does by itself. -/
theorem compileArgument_settles (h : call.Settles other) (index : Nat) :
    Halting.Settles (call.compileArgument index) (other.compileArgument index) := by
  have hargument := rel_getElem?_of_forall₂ h.arguments index
  unfold MethodCall.compileArgument
  rw [h.name, h.inner, h.arguments.length_eq]
  generalize call.arguments[index]? = argument?, other.arguments[index]? = other? at hargument ⊢
  cases hargument with
  | none => exact .refl _
  | some hargument => exact hargument.compile _

/-- A predicate goes no deeper than the argument. -/
theorem predicate_settles (h : call.Settles other) :
    Halting.Settles (predicate call) (predicate other) := by
  unfold predicate
  rw [h.name]
  exact .bind (compileArgument_settles h 0) fun node => .refl _

/-- A filter goes no deeper than its arguments. -/
theorem filtered_settles (h : call.Settles other) :
    Halting.Settles (filtered call) (filtered other) := by
  have hempty : call.arguments.isEmpty = other.arguments.isEmpty := by
    rw [Bool.eq_iff_iff, List.isEmpty_iff_length_eq_zero, List.isEmpty_iff_length_eq_zero,
      h.arguments.length_eq]
  have helement : call.elementName = other.elementName := by
    unfold MethodCall.elementName
    rw [h.inner]
  unfold filtered
  rw [hempty, h.receiver, helement]
  split
  · exact .refl _
  · exact .bind (predicate_settles h) fun test => .refl _

/-- A part of a list goes no deeper than the count. -/
theorem page_settles (cut : Plan → Plan → Plan) (h : call.Settles other) :
    Halting.Settles (page cut call) (page cut other) := by
  unfold page
  rw [h.name, h.receiver]
  exact .bind (compileArgument_settles h 0) fun count => .refl _

/-- Sorting goes no deeper than the key. -/
theorem orderBy_settles (descending : Bool) (h : call.Settles other) :
    Halting.Settles (orderBy descending call) (orderBy descending other) := by
  have helement : call.elementName = other.elementName := by
    unfold MethodCall.elementName
    rw [h.inner]
  unfold orderBy
  rw [h.name, h.receiver, helement]
  exact .bind (compileArgument_settles h 0) fun key => .refl _

/-- Membership in a list goes no deeper than the arguments. -/
theorem inSet_settles (h : call.Settles other) : Halting.Settles (inSet call) (inSet other) := by
  have hlisted : (call.arguments.mapM fun argument => listed argument.expr) =
      other.arguments.mapM fun argument => listed argument.expr := by
    have harguments := h.arguments
    generalize call.arguments = arguments, other.arguments = others at harguments
    induction harguments with
    | nil => rfl
    | cons hfirst _ ih => rw [List.mapM_cons, List.mapM_cons, hfirst.expr, ih]
  unfold inSet
  rw [hlisted, h.name, h.receiver]
  exact .refl _

/-- A test of a text goes no deeper than its argument. -/
theorem textTest_settles (test : TextTest) (h : call.Settles other) :
    Halting.Settles (textTest test call) (textTest test other) := by
  unfold textTest
  rw [h.name, h.receiver]
  exact .bind (compileArgument_settles h 0) fun argument => .refl _

/-- A negation goes no deeper than its arguments. -/
theorem not_settles (h : call.Settles other) : Halting.Settles (not call) (not other) := by
  unfold not
  exact .bind (compileArgument_settles h 0) fun operand => .refl _

/-- No standard method goes deeper than its arguments. -/
theorem level_of_mem_standard {method : Method} (hmem : method ∈ standard) : method.Level := by
  simp only [standard, List.mem_cons, List.not_mem_nil, or_false] at hmem
  rcases hmem with rfl | rfl | rfl | rfl | rfl | rfl | rfl | rfl | rfl | rfl | rfl | rfl | rfl |
    rfl | rfl | rfl
  · exact level_of_build fun _ _ h => filtered_settles h
  · exact level_of_build fun _ _ h => filtered_settles h
  · exact level_of_build fun _ _ h => .bind (filtered_settles h) fun _ => .refl _
  · exact level_of_build fun _ _ h => .bind (filtered_settles h) fun _ => .refl _
  · exact level_of_build fun _ _ h => .bind (filtered_settles h) fun _ => .refl _
  · exact level_of_build fun _ _ h => .bind (filtered_settles h) fun _ => .refl _
  · exact level_of_build fun _ _ h => page_settles _ h
  · exact level_of_build fun _ _ h => page_settles _ h
  · exact level_of_build fun _ _ h => orderBy_settles _ h
  · exact level_of_build fun _ _ h => orderBy_settles _ h
  · exact level_of_build fun _ _ h => inSet_settles h
  · exact level_of_build fun _ _ h => textTest_settles _ h
  · exact level_of_build fun _ _ h => textTest_settles _ h
  · exact level_of_build fun _ _ h => textTest_settles _ h
  · exact level_of_build fun _ _ h => textTest_settles _ h
  · exact level_of_build fun _ _ h => not_settles h

end Method

namespace MethodLibrary

variable {library : MethodLibrary}

/-- A library of standard methods. -/
def IsStandard (library : MethodLibrary) : Prop :=
  ∀ name method, library.find? name = some method → method ∈ Method.standard

/-- The standard library is one of standard methods. -/
theorem isStandard_standard : standard.IsStandard :=
  fun _ _ h => mem_of_find?_ofList h

/-- Standard methods go no deeper than their arguments do. -/
theorem IsStandard.level (h : library.IsStandard) : library.Level :=
  fun name method hfind => Method.level_of_mem_standard (h name method hfind)

/-- A call goes no deeper than its arguments. -/
theorem call_settles (hlibrary : library.Level) {arguments others : List CallArgument}
    (harguments : List.Forall₂ CallArgument.Settles arguments others) (receiver : Node)
    (name : String) (caller : Node) :
    Halting.Settles (library.call receiver name arguments caller)
      (library.call receiver name others caller) := by
  unfold call
  rw [harguments.length_eq]
  split
  · exact .refl _
  · rename_i method hfind
    have hmethod := hlibrary name method hfind
    refine .after _ fun _ => ?_
    split
    · exact Plan.graft_settles (fun list => hmethod _ _ _ _ harguments) _
    · exact hmethod _ _ _ _ harguments

end MethodLibrary

/-- Two compilations of fields: what the first one settles, the second one settles alike. -/
def FieldCompiler.Settles (fields others : FieldCompiler) : Prop :=
  ∀ (parent : Node) (field : FieldDefinition) (bound : Entries Value),
    Halting.Settles (fields parent field bound) (others parent field bound)

namespace Scope

variable {scope : Scope} {capture : Capture} {fields others : FieldCompiler}

/-- The scope in which fields may refer to each other to another depth. -/
def atDepth (scope : Scope) (depth : Nat) : Scope :=
  { scope with depth }

/-- A name goes no deeper than the fields do. -/
theorem resolve_settles (hfields : fields.Settles others) (depth : Nat) (parent : Node)
    (name : String) :
    Halting.Settles (scope.resolve fields parent name)
      ((scope.atDepth depth).resolve others parent name) := by
  unfold resolve atDepth
  dsimp only
  split
  · split
    · exact .refl _
    · exact .after _ fun bound => hfields _ _ bound
  · exact .refl _
  · exact .refl _
  · exact .refl _

mutual

/-- An expression goes no deeper than its fields do. -/
theorem compileExpr_settles (hmethods : scope.methods.Level) (hfields : fields.Settles others)
    (depth : Nat) (context : Node) :
    (expr : Expr) → Halting.Settles (scope.compileExpr capture fields context expr)
      ((scope.atDepth depth).compileExpr capture others context expr)
  | .literal value => by
    unfold compileExpr
    exact .refl _
  | .var name => by
    unfold compileExpr
    exact .refl _
  | .identifier name => by
    unfold compileExpr
    exact resolve_settles hfields depth context name
  | .access object name => by
    unfold compileExpr
    exact .bind (compileExpr_settles hmethods hfields depth context object)
      fun parent => resolve_settles hfields depth parent name
  | .invoke method arguments => by
    unfold compileExpr
    exact MethodLibrary.call_settles hmethods (callArguments_settles hmethods hfields depth
      arguments) context method context
  | .call receiver method arguments => by
    unfold compileExpr
    exact .bind (compileExpr_settles hmethods hfields depth context receiver) fun node =>
      MethodLibrary.call_settles hmethods (callArguments_settles hmethods hfields depth arguments)
        node method context
  | .binary op left right => by
    unfold compileExpr
    exact .bind (compileExpr_settles hmethods hfields depth context left) fun l =>
      .bind (compileExpr_settles hmethods hfields depth context right) fun r => .refl _
  | .conditional test testText yes no => by
    unfold compileExpr
    refine .bind (compileExpr_settles hmethods hfields depth context test) fun t => ?_
    split
    · exact .refl _
    · exact .bind (compileExpr_settles hmethods hfields depth context yes) fun y =>
        .bind (compileExpr_settles hmethods hfields depth context no) fun n => .refl _

/-- The arguments of a call go no deeper than their fields do. -/
theorem callArguments_settles (hmethods : scope.methods.Level) (hfields : fields.Settles others)
    (depth : Nat) :
    (arguments : List Expr) → List.Forall₂ CallArgument.Settles
      (scope.callArguments capture fields arguments)
      ((scope.atDepth depth).callArguments capture others arguments)
  | [] => by
    unfold callArguments
    exact .nil
  | expr :: rest => by
    unfold callArguments
    exact .cons ⟨rfl, fun context => compileExpr_settles hmethods hfields depth context expr⟩
      (callArguments_settles hmethods hfields depth rest)

end

/-- A source text goes no deeper than the fields do. -/
theorem compileText_settles (hmethods : scope.methods.Level) (hfields : fields.Settles others)
    (depth : Nat) (context : Node) (source : String) :
    Halting.Settles (scope.compileText capture fields context source)
      ((scope.atDepth depth).compileText capture others context source) :=
  .after _ fun expr => compileExpr_settles hmethods hfields depth context expr

/-- The value of a field goes no deeper than its sources do. -/
theorem compileResolver_settles {compile other : String → Compile Node}
    (h : ∀ source, Halting.Settles (compile source) (other source)) (parent : Node)
    (field : FieldDefinition) :
    Halting.Settles (compileResolver compile parent field)
      (compileResolver other parent field) := by
  have hinputs : ∀ (inputs : List String) (parent : Node),
      Halting.Settles (compileInputs compile parent inputs)
        (compileInputs other parent inputs) := by
    intro inputs
    induction inputs with
    | nil => exact fun parent => .refl _
    | cons source rest ih =>
      exact fun parent => .bind (h source) fun input => .bind (ih _) fun _ => .refl _
  unfold compileResolver
  split
  · exact .refl _
  · exact h _
  · exact .bind (hinputs _ parent) fun _ => .refl _

/-- Fields with sources come to the same at every larger depth. -/
theorem compileField_settles {schema : Schema} {methods : MethodLibrary}
    (hmethods : methods.Level) {depth more : Nat} (hle : depth ≤ more) (vars : Entries Value) :
    (compileField capture schema methods depth vars).Settles
      (compileField capture schema methods more vars) := by
  induction depth generalizing more vars with
  | zero =>
    intro parent field bound
    cases more with
    | zero => exact .refl _
    | succ more => exact compileResolver_settles (fun _ => .tooDeep _) parent field
  | succ depth ih =>
    obtain ⟨more, rfl⟩ : ∃ smaller, more = smaller + 1 := ⟨more - 1, by omega⟩
    intro parent field bound
    let inner : Scope := ⟨schema, methods, Entries.extend vars bound, depth⟩
    exact compileResolver_settles (@compileText_settles inner capture _ _ hmethods
      (ih (by omega) inner.vars) more parent) parent field

end Scope

end TypedQuery
