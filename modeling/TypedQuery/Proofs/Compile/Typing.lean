import TypedQuery.Proofs.Method.Typing

/-!
# Expressions compile to well-typed plans

An expression in a good context compiles to a good node: fields, variables, operators,
conditionals and calls keep the typing rules, and so do computed fields and the inputs of
services, to any depth. What a schema has to satisfy is stated once for its fields.
-/

namespace TypedQuery

open Halting

namespace Expr

mutual

/-- The names of fields that an expression mentions. -/
def names : Expr → List String
  | literal _ | var _ => []
  | identifier name => [name]
  | access object name => name :: names object
  | invoke _ arguments => argumentNames arguments
  | call receiver _ arguments => names receiver ++ argumentNames arguments
  | binary _ left right => names left ++ names right
  | conditional test _ yes no => names test ++ (names yes ++ names no)

/-- The names of fields that the arguments of a call mention. -/
def argumentNames : List Expr → List String
  | [] => []
  | expr :: rest => names expr ++ argumentNames rest

end

end Expr

/-- A source text mentions only names that may be read. -/
def Assumptions.Reads (A : Assumptions) (source : String) : Prop :=
  ∀ expr, Expr.read source = .ok expr → ∀ name ∈ expr.names, A.readable name

/-- The sources from which a field is computed. -/
def FieldDefinition.sources (field : FieldDefinition) : List String :=
  match field.resolver with
  | .member _ => []
  | .computed source => [source]
  | .service _ inputs _ => inputs

/-- A field of a type keeps what is assumed of the world: its member is known, its service is
honest and its sources mention readable names. -/
structure FieldDefinition.Admitted (A : Assumptions) (type : String) (field : FieldDefinition) :
    Prop where
  member : ∀ host, field.resolver = .member host → A.members type host field.ty
  service : ∀ service inputs run, field.resolver = .service service inputs run →
    A.honest field.ty (Scope.serviceFunction service run)
  sources : ∀ source ∈ field.sources, A.Reads source

/-- The values of bound arguments are known. -/
def Assumptions.Knows (A : Assumptions) (values : Entries Value) : Prop :=
  ∀ name value, Entries.find? values name = some value → A.known name value

/-- The fields of a schema that may be read are admitted, and so are the defaults of their
arguments. -/
structure Schema.Within (A : Assumptions) (schema : Schema) : Prop where
  admitted : ∀ type name field, schema.field? type name = some field → A.readable name →
    field.Admitted A type
  defaults : ∀ type name field bound, schema.field? type name = some field → A.readable name →
    schema.bindArguments name field.arguments [] = .ok bound →
    ∀ entry ∈ bound, A.known entry.1 entry.2

/-- Admitted fields compile to good nodes on good parents. -/
def FieldCompiler.Sound (A : Assumptions) (fields : FieldCompiler) : Prop :=
  ∀ (Γ : Typing) (parent : Node) (type : String) (field : FieldDefinition) (bound : Entries Value),
    parent.Good A Γ → parent.ty.underlying = .object type → field.Admitted A type →
    (∀ entry ∈ bound, A.known entry.1 entry.2) →
    Ensures (fields parent field bound) fun node => node.Good A Γ

/-- What a scope needs so that expressions compile to good nodes. -/
structure Scope.Sound (A : Assumptions) (scope : Scope) : Prop where
  schema : scope.schema.Within A
  methods : scope.methods.Sound A
  vars : A.Knows scope.vars

namespace Scope

variable {A : Assumptions} {Γ : Typing} {scope : Scope} {fields : FieldCompiler}
variable {parent node : Node}

/-- A written-out constant is a good node. -/
theorem good_literal (value : Literal) : value.node.Good A Γ := by
  refine ⟨⟨fun _ h => absurd h List.not_mem_nil, ?_⟩, ?_⟩
  · cases value with
    | integer n =>
      unfold Literal.node
      dsimp only
      split
      · rename_i hfits
        exact .const rfl (.int rfl hfits)
      · exact .const rfl (.int rfl (IntKind.fits_toInt n))
    | decimal d => exact .ofValue rfl (.decimal rfl)
    | text s => exact .ofValue rfl (.text rfl)
    | boolean b => exact .ofValue rfl (.boolean rfl)
    | null => exact .ofValue rfl .null
  · cases value with
    | integer n =>
      unfold Literal.node
      dsimp only
      split <;> rfl
    | _ => rfl

/-- A variable enters a plan as a parameter that the node captures. -/
theorem variableNode_ensures (hvars : A.Knows scope.vars) (name : String) :
    Ensures (scope.variableNode .parameter name) fun node => node.Good A Γ := by
  unfold variableNode
  split
  · exact .fail _
  · rename_i value hvalue
    have hknown := hvars name value hvalue
    refine .pure ⟨⟨?_,
      .param (Or.inr ⟨name, value, rfl, List.mem_singleton.mpr rfl, hknown, rfl⟩)⟩, rfl⟩
    intro entry hentry
    rw [List.mem_singleton.mp hentry]
    exact hknown

/-- A field of a good node is a good node. Fields of object types have to be readable. -/
theorem resolve_ensures (hschema : scope.schema.Within A) (hfields : fields.Sound A)
    (hparent : parent.Good A Γ) {name : String}
    (hname : ∀ type, parent.ty.underlying = .object type → A.readable name) :
    Ensures (scope.resolve fields parent name) fun node => node.Good A Γ := by
  unfold resolve
  split
  · rename_i type htype
    have hreadable := hname type htype
    split
    · exact .fail _
    · rename_i field hfield
      refine .check fun bound hbound => ?_
      exact hfields Γ parent type field bound hparent htype
        (hschema.admitted type name field hfield hreadable)
        (hschema.defaults type name field bound hfield hreadable hbound)
  · rename_i signature htype
    split
    · rename_i ty hty
      refine .pure (hparent.member ?_)
      unfold Ty.HasMember
      rwa [htype]
    · exact .fail _
  · rename_i htype
    refine .pure (hparent.member ?_)
    unfold Ty.HasMember
    rw [htype]
  · exact .fail _

mutual

/-- An expression that mentions readable names compiles to a good node in a good context. -/
theorem compileExpr_ensures (hscope : scope.Sound A) (hfields : fields.Sound A) {Γ : Typing}
    {context : Node} (hcontext : context.Good A Γ) :
    (expr : Expr) → (∀ name ∈ expr.names, A.readable name) →
      Ensures (scope.compileExpr .parameter fields context expr) fun node => node.Good A Γ
  | .literal value, _ => by
    unfold compileExpr
    exact .pure (good_literal value)
  | .var name, _ => by
    unfold compileExpr
    exact variableNode_ensures hscope.vars name
  | .identifier name, hnames => by
    unfold compileExpr
    exact resolve_ensures hscope.schema hfields hcontext fun _ _ => hnames name List.mem_cons_self
  | .access object name, hnames => by
    unfold compileExpr
    refine .bind (compileExpr_ensures hscope hfields hcontext object
      fun other h => hnames other (List.mem_cons_of_mem _ h)) fun parent hparent => ?_
    exact resolve_ensures hscope.schema hfields hparent fun _ _ => hnames name List.mem_cons_self
  | .invoke method arguments, hnames => by
    unfold compileExpr
    exact MethodLibrary.call_ensures hscope.methods hcontext hcontext
      (callArguments_good hscope hfields arguments hnames)
  | .call receiver method arguments, hnames => by
    unfold compileExpr
    refine .bind (compileExpr_ensures hscope hfields hcontext receiver
      fun name h => hnames name (List.mem_append_left _ h)) fun node hnode => ?_
    exact MethodLibrary.call_ensures hscope.methods hnode hcontext
      (callArguments_good hscope hfields arguments
        fun name h => hnames name (List.mem_append_right _ h))
  | .binary op left right, hnames => by
    unfold compileExpr
    refine .bind (compileExpr_ensures hscope hfields hcontext left
      fun name h => hnames name (List.mem_append_left _ h)) fun l hl => ?_
    refine .bind (compileExpr_ensures hscope hfields hcontext right
      fun name h => hnames name (List.mem_append_right _ h)) fun r hr => ?_
    refine .check fun plan hplan => .pure ?_
    refine ⟨.join hl.toSound hr.toSound (Plan.typed_reconcile
      (hl.typed.extend (Node.join_extends_left l r plan))
      (hr.typed.extend (Node.join_extends_right l r plan)) hplan), ?_⟩
    obtain ⟨_, _, _, rfl⟩ := Plan.reconcile_eq_operator hplan
    rfl
  | .conditional test testText yes no, hnames => by
    unfold compileExpr
    refine .bind (compileExpr_ensures hscope hfields hcontext test
      fun name h => hnames name (List.mem_append_left _ h)) fun t ht => ?_
    split
    · exact .fail _
    · rename_i condition hcondition
      refine .bind (compileExpr_ensures hscope hfields hcontext yes fun name h =>
        hnames name (List.mem_append_right _ (List.mem_append_left _ h))) fun y hy => ?_
      refine .bind (compileExpr_ensures hscope hfields hcontext no fun name h =>
        hnames name (List.mem_append_right _ (List.mem_append_right _ h))) fun n hn => ?_
      -- all three parts are typed with what the whole captures
      have hty := ht.typed.asPredicate? hcondition
      have hty := Node.Types.extend hty (Node.join_extends_left t y condition)
      have hyty := hy.typed.extend (Node.join_extends_right t y condition)
      have hty := hty.extend (Node.join_extends_left (t.join y condition) n condition)
      have hyty := hyty.extend (Node.join_extends_left (t.join y condition) n condition)
      have hnty := hn.typed.extend (Node.join_extends_right (t.join y condition) n condition)
      generalize hbranches : y.plan.unifyBranches n.plan = branches
      obtain ⟨first, second, ty⟩ := branches
      obtain ⟨hfirst, hsecond, hagree⟩ := Plan.typed_unifyBranches hyty hnty hbranches
      exact .pure ⟨⟨Node.known_join (Node.known_join ht.known hy.known) hn.known,
        .cond hty hfirst hsecond hagree⟩, rfl⟩

/-- The arguments of a call compile to good nodes. -/
theorem callArguments_good (hscope : scope.Sound A) (hfields : fields.Sound A) :
    (arguments : List Expr) → (∀ name ∈ Expr.argumentNames arguments, A.readable name) →
      ∀ argument ∈ scope.callArguments .parameter fields arguments, argument.Good A
  | [], _ => by
    unfold callArguments
    exact fun _ h => absurd h List.not_mem_nil
  | expr :: rest, hnames => by
    unfold callArguments
    intro argument hmem
    rcases List.mem_cons.mp hmem with rfl | hrest
    · intro Γ context hcontext
      exact compileExpr_ensures hscope hfields hcontext expr
        fun name h => hnames name (List.mem_append_left _ h)
    · exact callArguments_good hscope hfields rest
        (fun name h => hnames name (List.mem_append_right _ h)) argument hrest

end

/-- A source text on a good parent compiles to a good node. -/
theorem compileText_ensures (hscope : scope.Sound A) (hfields : fields.Sound A)
    (hparent : parent.Good A Γ) {source : String} (hsource : A.Reads source) :
    Ensures (scope.compileText .parameter fields parent source) fun node => node.Good A Γ := by
  refine .check fun expr hexpr => ?_
  exact compileExpr_ensures hscope hfields hparent expr (hsource expr (eq_ok_of_mapError hexpr))

/-- The inputs of a service are well typed with the node that collects their captures. -/
theorem compileInputs_ensures {compile : String → Compile Node} {inputs : List String}
    (hcompile : ∀ source ∈ inputs, Ensures (compile source) fun node => node.Good A Γ)
    (hknown : ∀ entry ∈ parent.constants, A.known entry.1 entry.2) :
    Ensures (compileInputs compile parent inputs) fun result =>
      (∀ entry ∈ result.1.constants, A.known entry.1 entry.2) ∧ result.1.Extends parent ∧
        ∀ plan ∈ result.2, result.1.Types A Γ plan ∧ plan.isPlainChain = true := by
  induction inputs generalizing parent with
  | nil =>
    unfold compileInputs
    exact .pure ⟨hknown, .refl _, fun _ h => absurd h List.not_mem_nil⟩
  | cons source rest ih =>
    unfold compileInputs
    refine .bind (hcompile source List.mem_cons_self) fun input hinput => ?_
    refine .bind (ih (fun other h => hcompile other (List.mem_cons_of_mem _ h))
      (Node.known_join hknown hinput.known)) fun ⟨node, plans⟩ ⟨hnode, hextends, hplans⟩ => ?_
    refine .pure ⟨hnode, hextends.trans (Node.join_extends_left _ _ _), ?_⟩
    intro plan hmem
    rcases List.mem_cons.mp hmem with rfl | hrest
    · exact ⟨hinput.typed.extend (hextends.trans (Node.join_extends_right _ _ _)), hinput.chain⟩
    · exact hplans plan hrest

/-- A node that needs a further service extends the node. -/
theorem needService_extends (node : Node) (service : String) :
    (node.needService service).Extends node :=
  ⟨fun _ h => h, fun _ h => Node.mem_addService.mpr (Or.inl h)⟩

/-- The call of a service on well-typed arguments is a good node. -/
theorem good_call {plans : List Plan} {ty : Ty} {name service : String} {run : HostFunction}
    (hknown : ∀ entry ∈ node.constants, A.known entry.1 entry.2)
    (hplans : ∀ plan ∈ plans, node.Types A Γ plan ∧ plan.isPlainChain = true)
    (hhonest : A.honest ty run) :
    ((node.map fun _ => .call ty name (some service) run plans).needService service).Good A Γ := by
  have hextends := needService_extends
    (node.map fun _ => .call ty name (some service) run plans) service
  refine ⟨⟨hknown, .call ?_ hhonest ?_⟩, ?_⟩
  · exact fun plan hmem => (hplans plan hmem).1.extend ⟨hextends.constants, hextends.services⟩
  · intro other hother
    cases hother
    exact Node.mem_addService.mpr (Or.inr rfl)
  · cases plans with
    | nil => rfl
    | cons first rest => exact (hplans first List.mem_cons_self).2

/-- The variables of a field are those of its scope and its bound arguments. -/
theorem knows_extend {vars bound : Entries Value} (hvars : A.Knows vars)
    (hbound : ∀ entry ∈ bound, A.known entry.1 entry.2) : A.Knows (Entries.extend vars bound) := by
  intro name value hfind
  rcases Entries.find?_extend hfind with h | h
  · exact hvars name value h
  · exact hbound _ h

/-- An admitted field is a good node on a good parent if its sources compile to good nodes. -/
theorem compileResolver_ensures {compile : String → Compile Node} {type : String}
    {field : FieldDefinition} (hparent : parent.Good A Γ)
    (htype : parent.ty.underlying = .object type) (hfield : field.Admitted A type)
    (hcompile : ∀ source ∈ field.sources, Ensures (compile source) fun node => node.Good A Γ) :
    Ensures (compileResolver compile parent field) fun node => node.Good A Γ := by
  unfold compileResolver
  split
  · rename_i host hresolver
    refine .pure (hparent.member ?_)
    unfold Ty.HasMember
    rw [htype]
    exact hfield.member host hresolver
  · rename_i source hresolver
    exact hcompile source (by simp [FieldDefinition.sources, hresolver])
  · rename_i service inputs run hresolver
    refine .bind (compileInputs_ensures (fun source hsource => hcompile source ?_) hparent.known)
      fun ⟨node, plans⟩ ⟨hnode, _, hplans⟩ =>
        .pure (good_call hnode hplans (hfield.service _ _ _ hresolver))
    simpa [FieldDefinition.sources, hresolver] using hsource

/-- Admitted fields compile to good nodes at every depth. -/
theorem sound_compileField {schema : Schema} {methods : MethodLibrary}
    (hschema : schema.Within A) (hmethods : methods.Sound A) (depth : Nat) :
    ∀ vars : Entries Value, A.Knows vars →
      (compileField .parameter schema methods depth vars).Sound A := by
  induction depth with
  | zero =>
    intro vars hvars Γ parent type field bound hparent htype hfield hbound
    exact compileResolver_ensures hparent htype hfield fun _ _ => .tooDeep
  | succ depth ih =>
    intro vars hvars Γ parent type field bound hparent htype hfield hbound
    have hinner := knows_extend hvars hbound
    refine compileResolver_ensures hparent htype hfield fun source hsource => ?_
    exact compileText_ensures ⟨hschema, hmethods, hinner⟩ (ih _ hinner) hparent
      (hfield.sources source hsource)

/-- The compilation of fields in a sound scope. -/
theorem sound_fieldCompiler (hscope : scope.Sound A) : (scope.fieldCompiler .parameter).Sound A :=
  sound_compileField hscope.schema hscope.methods scope.depth scope.vars hscope.vars

/-- The context of the host is a good node. -/
theorem good_context (ty : Ty) : (context ty).Good A (.only contextName ty) :=
  ⟨⟨fun _ h => absurd h List.not_mem_nil, .param (Or.inl ⟨rfl, rfl⟩)⟩, rfl⟩

/-- A source text that mentions readable names compiles to a good node. -/
theorem compileSource_ensures (hscope : scope.Sound A) (hparent : parent.Good A Γ)
    {source : String} (hsource : A.Reads source) :
    Ensures (scope.compileSource parent source) fun node => node.Good A Γ :=
  compileText_ensures hscope (sound_fieldCompiler hscope) hparent hsource

end Scope

end TypedQuery
