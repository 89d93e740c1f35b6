import TypedQuery.Compile.Basic
import TypedQuery.Plan.Retype
import TypedQuery.Proofs.Value.Conformance

/-!
# Well-typed plans

The typing rules of plans: every node has the type that its operands determine, and every
parameter is referred to at a type that its binder allows. What is assumed of the world around
a query is a parameter of the rules, so that the same rules serve whatever is known of hosts.
-/

namespace TypedQuery

/-- The types at which parameters may be referred to. -/
abbrev Typing := String → Ty → Prop

namespace Typing

/-- The parameters inside of a binder. -/
def bind (Γ : Typing) (name : String) (item : Ty) : Typing := fun other ty =>
  if other = name then ty = item else Γ other ty

/-- A single parameter. -/
def only (name : String) (item : Ty) : Typing := fun other ty =>
  other = name ∧ ty = item

/-- Inside of a binder its parameter has the type of the items. -/
theorem bind_self (Γ : Typing) (name : String) (item : Ty) : Γ.bind name item name item := by
  unfold bind
  rw [if_pos rfl]

/-- Inside of a binder the other parameters are as outside. -/
theorem bind_of_ne {Γ : Typing} {name other : String} {item ty : Ty} (hne : other ≠ name) :
    Γ.bind name item other ty ↔ Γ other ty := by
  unfold bind
  rw [if_neg hne]

/-- More parameters outside of a binder are more inside of it. -/
theorem bind_mono {Γ Δ : Typing} (h : ∀ name ty, Γ name ty → Δ name ty)
    (name : String) (item : Ty) :
    ∀ other ty, Γ.bind name item other ty → Δ.bind name item other ty := by
  intro other ty hty
  by_cases hname : other = name
  · subst hname
    unfold bind at hty ⊢
    rwa [if_pos rfl] at hty ⊢
  · rw [bind_of_ne hname] at hty ⊢
    exact h other ty hty

end Typing

/-- What is assumed of the world around a query: the members of objects, the functions of the
host that may stand at a type, the values that variables may have, and the names that sources
may refer to. -/
structure Assumptions where
  members : Members
  honest : Ty → HostFunction → Prop
  known : String → Value → Prop
  readable : String → Prop

/-- The parameters of a context together with those of captured variables. -/
def Assumptions.capturing (A : Assumptions) (Γ : Typing) (constants : Entries Value) : Typing :=
  fun name ty => Γ name ty ∨
    ∃ variableName value, name = constantName variableName ∧
      variableName ∈ Entries.names constants ∧ A.known variableName value ∧ ty = value.staticType

/-- The scalar types to which a conversion gives nothing but values of the type. -/
def Ty.isChecked : Ty → Bool
  | boolean | int _ | float | decimal | string | guid | dateTime => true
  | _ => false

/-- A conversion from one type to another gives values of the other type. -/
def Ty.ConvertsTo (source target : Ty) : Prop :=
  source.core = target.core ∨ source = .null ∨ target.core.isChecked = true ∨
    (∃ name, target.core = .enum name) ∧ source.intKind?.isSome = true

/-- Values of a type have a member of a type. -/
def Ty.HasMember (members : Members) (object : Ty) (name : String) (ty : Ty) : Prop :=
  match object.underlying with
  | .object type => members type name ty
  | .record fields => Signature.type? fields name = some ty
  | .any => ty = .any
  | _ => False

/-- The members of an object type are those of the schema. -/
theorem Ty.HasMember.of_object {members : Members} {object ty : Ty} {type name : String}
    (h : object.HasMember members name ty) (hcore : object.core = .object type) :
    members type name ty := by
  unfold HasMember at h
  rw [← core_underlying] at hcore
  split at h
  · rename_i hobject
    rw [hobject] at hcore
    cases hcore
    exact h
  · rename_i hrecord
    exact absurd (hrecord ▸ hcore) nofun
  · rename_i hany
    exact absurd (hany ▸ hcore) nofun
  · cases h

/-- The members of a record type are its fields. -/
theorem Ty.HasMember.of_record {members : Members} {object ty : Ty} {fields : Signature}
    {name : String} (h : object.HasMember members name ty) (hcore : object.core = .record fields) :
    fields.type? name = some ty := by
  unfold HasMember at h
  rw [← core_underlying] at hcore
  split at h
  · rename_i hobject
    exact absurd (hobject ▸ hcore) nofun
  · rename_i hrecord
    rw [hrecord] at hcore
    cases hcore
    exact h
  · rename_i hany
    exact absurd (hany ▸ hcore) nofun
  · cases h

/-- The members of a dynamic value are dynamic. -/
theorem Ty.HasMember.of_any {members : Members} {object ty : Ty} {name : String}
    (h : object.HasMember members name ty) (hcore : object.core = .any) : ty = .any := by
  unfold HasMember at h
  rw [← core_underlying] at hcore
  split at h
  · rename_i hobject
    exact absurd (hobject ▸ hcore) nofun
  · rename_i hrecord
    exact absurd (hrecord ▸ hcore) nofun
  · exact h
  · cases h

/-- A type fits an operation on an operand of a type. -/
def UnaryOp.Fits (members : Members) (op : UnaryOp) (operand ty : Ty) : Prop :=
  match op with
  | .member name => operand.HasMember members name ty
  | .not | .inSet _ => ty = .boolean
  | .convert => operand.ConvertsTo ty
  | .distinct => ty = operand
  | .reduce reduction => ty = Plan.reducedTy operand reduction

/-- A type fits an operation on operands of two types. -/
def BinaryOp.Fits (op : BinaryOp) (left right ty : Ty) : Prop :=
  match op with
  | .operator op =>
    ty = .any ∨ (op.isComparison || op.isLogical) = true ∧ ty = .boolean ∨
      op.isArithmetic = true ∧ ty.isNumeric = true ∧ left = ty ∧ right = ty ∨
      op = .add ∧ ty = .string ∧ left.isString = true ∧ right.isString = true
  | .compareText => ty = .int .i32
  | .textTest _ => ty = .boolean
  | .take | .skip => ty = left

/-- A type fits a binder of a parameter of the type `item`. -/
def Binder.Fits (binder : Binder) (source item body ty : Ty) : Prop :=
  match binder with
  | .filter | .orderBy _ => source = .list item ∧ ty = source
  | .project => source = .list item ∧ ty = .list body
  | .given => item = source.underlying ∧ ty = body.orNull

namespace Plan

/-- A plan follows the typing rules and calls listed services only. -/
inductive Typed (A : Assumptions) (services : List String) : Typing → Plan → Prop
  | const {Γ : Typing} {ty : Ty} {value : Value} (hscalar : value.isScalar = true)
      (hvalue : value.Conforms A.members ty) : Typed A services Γ (.const ty value)
  | param {Γ : Typing} {ty : Ty} {name : String} (hparam : Γ name ty) :
      Typed A services Γ (.param ty name)
  | unary {Γ : Typing} {ty : Ty} {op : UnaryOp} {operand : Plan}
      (hoperand : Typed A services Γ operand) (hfits : op.Fits A.members operand.ty ty) :
      Typed A services Γ (.unary ty op operand)
  | binary {Γ : Typing} {ty : Ty} {op : BinaryOp} {left right : Plan}
      (hleft : Typed A services Γ left) (hright : Typed A services Γ right)
      (hfits : op.Fits left.ty right.ty ty) : Typed A services Γ (.binary ty op left right)
  | cond {Γ : Typing} {ty : Ty} {test yes no : Plan} (htest : Typed A services Γ test)
      (hyes : Typed A services Γ yes) (hno : Typed A services Γ no)
      (hty : ty = .any ∨ yes.ty = ty ∧ no.ty = ty) : Typed A services Γ (.cond ty test yes no)
  | bind {Γ : Typing} {ty item : Ty} {binder : Binder} {source body : Plan} {name : String}
      (hsource : Typed A services Γ source) (hbody : Typed A services (Γ.bind name item) body)
      (hfits : binder.Fits source.ty item body.ty ty) :
      Typed A services Γ (.bind ty binder source name body)
  | record {Γ : Typing} {fields : Signature} {values : List Plan}
      (hvalues : ∀ plan ∈ values, Typed A services Γ plan)
      (htys : values.map Plan.ty = fields.map Prod.snd) :
      Typed A services Γ (.record (.record fields) fields values)
  | call {Γ : Typing} {ty : Ty} {name : String} {service? : Option String} {run : HostFunction}
      {arguments : List Plan} (harguments : ∀ plan ∈ arguments, Typed A services Γ plan)
      (hhonest : A.honest ty run) (hservice : ∀ service ∈ service?, service ∈ services) :
      Typed A services Γ (.call ty name service? run arguments)

variable {A : Assumptions} {services more : List String} {Γ Δ : Typing} {plan operand : Plan}

/-- Further parameters and further services do no harm. -/
theorem Typed.mono (h : Typed A services Γ plan) (hservices : ∀ s ∈ services, s ∈ more)
    (hΓ : ∀ name ty, Γ name ty → Δ name ty) : Typed A more Δ plan := by
  induction h generalizing Δ with
  | const hscalar hvalue => exact .const hscalar hvalue
  | param hparam => exact .param (hΓ _ _ hparam)
  | unary _ hfits ih => exact .unary (ih hΓ) hfits
  | binary _ _ hfits ihl ihr => exact .binary (ihl hΓ) (ihr hΓ) hfits
  | cond _ _ _ hty iht ihy ihn => exact .cond (iht hΓ) (ihy hΓ) (ihn hΓ) hty
  | bind _ _ hfits ihs ihb => exact .bind (ihs hΓ) (ihb (Typing.bind_mono hΓ _ _)) hfits
  | record _ htys ih => exact .record (fun plan hmem => ih plan hmem hΓ) htys
  | call _ hhonest hservice ih =>
    exact .call (fun plan hmem => ih plan hmem hΓ) hhonest fun s hs => hservices s (hservice s hs)

/-- A conversion is well typed, and nothing is added to an operand of the type. -/
theorem Typed.convert {ty : Ty} (h : Typed A services Γ operand)
    (hconvert : operand.ty.ConvertsTo ty) :
    Typed A services Γ (operand.convert ty) ∧ (operand.convert ty).ty = ty := by
  unfold Plan.convert
  split
  · exact ⟨h, ‹_›⟩
  · exact ⟨.unary h hconvert, rfl⟩

/-- A scalar value at its own type. -/
theorem Typed.ofValue {value : Value} (hscalar : value.isScalar = true)
    (hvalue : value.Conforms A.members value.staticType) :
    Typed A services Γ (Plan.ofValue value) :=
  .const hscalar hvalue

/-- The chain that leads down from a plan has no conversion and no binding, as in what
expressions compile to. -/
def isPlainChain : Plan → Bool
  | unary _ (.member _) operand => operand.isPlainChain
  | unary _ (.reduce _) operand => operand.isPlainChain
  | unary _ .convert _ => false
  | bind _ .given _ _ _ => false
  | call _ _ _ _ (first :: _) => first.isPlainChain
  | _ => true

end Plan

namespace Node

variable {A : Assumptions} {Γ : Typing} {node : Node}

/-- The plan follows the typing rules with the captures and services of the node. -/
def Types (A : Assumptions) (Γ : Typing) (node : Node) (plan : Plan) : Prop :=
  Plan.Typed A node.services (A.capturing Γ node.constants) plan

/-- A node follows the typing rules with the variables that it captures, whose values are
known, and with the services that it lists. -/
structure Sound (A : Assumptions) (Γ : Typing) (node : Node) : Prop where
  known : ∀ entry ∈ node.constants, A.known entry.1 entry.2
  typed : node.Types A Γ node.plan

/-- A sound node at which chains can be grafted. -/
structure Good (A : Assumptions) (Γ : Typing) (node : Node) : Prop extends Sound A Γ node where
  chain : node.plan.isPlainChain = true

/-- A member of a good node whose values have it. -/
theorem Good.member {name : String} {ty : Ty} (h : node.Good A Γ)
    (hmember : node.ty.HasMember A.members name ty) :
    (node.map fun plan => plan.member name ty).Good A Γ :=
  ⟨⟨h.known, .unary h.typed hmember⟩, h.chain⟩

/-- A list of services holds the one that is added. -/
theorem mem_addService {services : List String} {service other : String} :
    other ∈ addService services service ↔ other ∈ services ∨ other = service := by
  unfold addService
  split
  · constructor
    · exact Or.inl
    · rintro (h | rfl) <;> assumption
  · simp

/-- A list of services holds all that are added. -/
theorem mem_foldl_addService {services more : List String} {service : String} :
    service ∈ more.foldl addService services ↔ service ∈ services ∨ service ∈ more := by
  induction more generalizing services with
  | nil => simp
  | cons first rest ih =>
    rw [List.foldl_cons, ih, mem_addService, List.mem_cons]
    tauto

/-- A node captures the variables and lists the services of another one. -/
structure Extends (node base : Node) : Prop where
  constants : ∀ name ∈ Entries.names base.constants, name ∈ Entries.names node.constants
  services : ∀ service ∈ base.services, service ∈ node.services

/-- A node extends itself. -/
theorem Extends.refl (node : Node) : node.Extends node :=
  ⟨fun _ h => h, fun _ h => h⟩

/-- What extends an extension of a node extends the node. -/
theorem Extends.trans {a b c : Node} (hab : a.Extends b) (hbc : b.Extends c) : a.Extends c :=
  ⟨fun name h => hab.constants name (hbc.constants name h),
    fun service h => hab.services service (hbc.services service h)⟩

/-- A join extends its left side. -/
theorem join_extends_left (a b : Node) (plan : Plan) : (a.join b plan).Extends a :=
  ⟨fun _ h => Entries.mem_names_extend.mpr (Or.inl h),
    fun _ h => mem_foldl_addService.mpr (Or.inl h)⟩

/-- A join extends its right side. -/
theorem join_extends_right (a b : Node) (plan : Plan) : (a.join b plan).Extends b :=
  ⟨fun _ h => Entries.mem_names_extend.mpr (Or.inr h),
    fun _ h => mem_foldl_addService.mpr (Or.inr h)⟩

/-- What is well typed with a node is so with every node that extends it. -/
theorem Types.extend {base : Node} {plan : Plan} (h : base.Types A Γ plan)
    (hextends : node.Extends base) : node.Types A Γ plan := by
  refine Plan.Typed.mono h hextends.services ?_
  rintro name ty (hty | ⟨x, value, hname, hmem, hknown, hty⟩)
  · exact Or.inl hty
  · exact Or.inr ⟨x, value, hname, hextends.constants x hmem, hknown, hty⟩

/-- What is well typed with a single parameter is the body of a binder of that parameter, in
every node that extends it. -/
theorem Types.body {base : Node} {plan : Plan} {name : String} {item : Ty}
    (h : base.Types A (.only name item) plan) (hextends : node.Extends base)
    (hname : ∀ x, name ≠ constantName x) :
    Plan.Typed A node.services ((A.capturing Γ node.constants).bind name item) plan := by
  refine Plan.Typed.mono h hextends.services ?_
  rintro other ty (⟨rfl, rfl⟩ | ⟨x, value, rfl, hmem, hknown, hty⟩)
  · exact Typing.bind_self _ _ _
  · rw [Typing.bind_of_ne (Ne.symm (hname x))]
    exact Or.inr ⟨x, value, rfl, hextends.constants x hmem, hknown, hty⟩

/-- The values that a join captures are known if those of both sides are. -/
theorem known_join {a b : Node} {plan : Plan} (ha : ∀ entry ∈ a.constants, A.known entry.1 entry.2)
    (hb : ∀ entry ∈ b.constants, A.known entry.1 entry.2) :
    ∀ entry ∈ (a.join b plan).constants, A.known entry.1 entry.2 := by
  intro entry hmem
  rcases Entries.mem_of_mem_extend hmem with h | h
  · exact ha entry h
  · exact hb entry h

/-- The node of two nodes and a plan that is well typed with their captures. -/
theorem Sound.join {a b : Node} {plan : Plan} {Δ : Typing} (ha : a.Sound A Γ)
    (hb : b.Sound A Δ) (h : (a.join b plan).Types A Γ plan) : (a.join b plan).Sound A Γ :=
  ⟨known_join ha.known hb.known, h⟩

end Node

end TypedQuery
