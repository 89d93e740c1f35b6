import TypedQuery.Proofs.Plan.Preservation
import TypedQuery.Proofs.Plan.Vetting
import TypedQuery.Proofs.Value.Kinds

/-!
# Vetted plans raise no errors of types

A well-typed plan that is vetted, without powers and without nodes of dynamic types or of floats,
gives a value of the kind of its type or fails because of its data. The single exception is a count
that is `null`: the types of counts exclude it, but the values of members may be `null` whatever
their types say.
-/

namespace TypedQuery

variable {members : Members} {met : Prop} {left right operand : Value} {a b ty : Ty}

/-- Operations on one value of the kind that they stand on keep to the kinds. -/
theorem UnaryOp.ends_apply {op : UnaryOp} (hfits : op.Fits members a ty) (htakes : op.Takes a)
    (hdefinite : a.Definite) (h : operand.Agrees members a) :
    Ends met (op.apply ty operand) fun result => result.Agrees members ty := by
  cases op with
  | member name => exact h.readMember hdefinite hfits
  | not =>
    cases hfits
    cases htakes
    rcases h.null_or_kind rfl with rfl | ⟨b, rfl⟩
    · exact .ok .null
    · exact .ok (.boolean _)
  | convert => exact h.convert hfits
  | inSet set =>
    cases hfits
    exact .ok (.boolean _)
  | distinct =>
    cases hfits
    refine .bind (h.sequence htakes) fun items? _ hitems => ?_
    rcases hitems with ⟨items, rfl, rfl⟩ | ⟨rfl, rfl⟩
    · exact .ok (h.sublist (Value.distinctItems_subset items).2)
    · exact .ok .null
  | reduce reduction =>
    cases hfits
    have hlist : a.isSequence = true := by
      rcases (Bool.or_eq_true _ _).mp htakes with hlist | hany
      · exact hlist
      · exact absurd (by rw [← Ty.core_underlying, of_decide_eq_true hany]; rfl) hdefinite.1
    refine .bind (h.sequence hlist) fun items? _ hitems => ?_
    rcases hitems with ⟨items, rfl, rfl⟩ | ⟨rfl, rfl⟩
    · exact .ok (h.reduced hlist reduction)
    · exact .ok .null

/-- An operator that is no connective, on values of the kinds that it stands on. -/
theorem Operator.ends_apply {op : Operator} (hpower : op ≠ .power) (hlogical : op.isLogical = false)
    (hfits : (BinaryOp.operator op).Fits a b ty) (htakes : (BinaryOp.operator op).Takes a b)
    (ha : a.Definite) (hb : b.Definite) (hty : ty.Definite) (hl : left.Agrees members a)
    (hr : right.Agrees members b) :
    Ends met (op.apply ty left right) fun result => result.Agrees members ty := by
  unfold apply
  rcases hfits with rfl | ⟨hcomparison, rfl⟩ | ⟨harithmetic, hnumeric, rfl, rfl⟩ |
    ⟨rfl, rfl, hleft, hright⟩
  · exact absurd rfl hty.1
  · split
    · exact .ok (.boolean _)
    · rename_i hequality
      have hrelational : op.isRelational = true := by
        simpa [Operator.isComparison, hlogical, hequality] using hcomparison
      rw [if_pos hrelational]
      split
      · exact .ok (.boolean false)
      · rename_i hnull
        have hnulls : left ≠ .null ∧ right ≠ .null :=
          ⟨fun h => hnull (by rw [h]; rfl), fun h => hnull (by rw [h]; simp [Value.isNull])⟩
        obtain ⟨order, horder⟩ :=
          Value.Agrees.exists_compare (htakes.2 hrelational) ha hb hl hr hnulls.1 hnulls.2
        rw [horder]
        exact .ok (.boolean _)
  · have hneither : op.isEquality = false ∧ op.isRelational = false := by
      cases op <;> first | exact ⟨rfl, rfl⟩ | cases harithmetic
    rw [hneither.1, hneither.2]
    exact hl.arithmetic hpower hnumeric hty.2 hr
  · exact hl.join rfl hr hleft hright

/-- A truth value decides about a connective, and a list or `null` about a cut. -/
theorem BinaryOp.ends_decided? {op : BinaryOp} (hfits : op.Fits a b ty) (htakes : op.Takes a b)
    (hl : left.Agrees members a) :
    Ends met (op.decided? left) fun result? => ∀ result ∈ result?, result.Agrees members ty := by
  have htruth : a = .boolean → Ends met left.truth fun _ => True := by
    rintro rfl
    rcases hl.null_or_kind rfl with rfl | ⟨b, rfl⟩ <;> exact .ok trivial
  have hboolean : ∀ {op : Operator} (truth : Bool), (BinaryOp.operator op).Fits a b ty →
      op.isArithmetic = false → (Value.boolean truth).Agrees members ty :=
    fun truth hfits hop => (hfits.boolean hop truth).1.agrees
  unfold decided?
  split
  · refine .bind (htruth (htakes.1 rfl).1) fun truth _ _ => .ok ?_
    split
    · exact nofun
    · rintro _ ⟨⟩
      exact hboolean false hfits rfl
  · refine .bind (htruth (htakes.1 rfl).1) fun truth _ _ => .ok ?_
    split
    · rintro _ ⟨⟩
      exact hboolean true hfits rfl
    · exact nofun
  · refine .bind (hl.sequence htakes.1) fun items? _ hitems => ?_
    rcases hitems with ⟨items, rfl, -⟩ | ⟨rfl, -⟩
    · exact .ok nofun
    · exact .ok (by rintro _ ⟨⟩; exact .null)
  · refine .bind (hl.sequence htakes.1) fun items? _ hitems => ?_
    rcases hitems with ⟨items, rfl, -⟩ | ⟨rfl, -⟩
    · exact .ok nofun
    · exact .ok (by rintro _ ⟨⟩; exact .null)
  · exact .ok nofun

/-- A count is an integer unless it is `null`. -/
theorem ends_countOf (length : Nat) (hb : b.intKind?.isSome = true) (hr : right.Agrees members b) :
    Ends (right = .null) (countOf length right) fun _ => True := by
  obtain ⟨kind, hkind⟩ := Ty.exists_core_of_intKind? hb
  rcases hr.null_or_kind hkind with rfl | hinteger
  · exact .inr ⟨rfl, rfl⟩
  · cases right <;> cases hinteger <;> exact .ok trivial

/-- A cut of a list gives items of the list, unless its count is `null`. -/
theorem ends_cut {items : List Value} {cut : Nat → List Value} (hb : b.intKind?.isSome = true)
    (hl : (Value.list items).Agrees members a) (hr : right.Agrees members b)
    (hcut : ∀ n, ∀ item ∈ cut n, item ∈ items) :
    Ends (right = .null) (do return Value.list (cut (← countOf items.length right)))
      fun result => result.Agrees members a :=
  .bind (ends_countOf items.length hb hr) fun n _ _ => .ok (hl.sublist (hcut n))

/-- What stands for a text is one, or `null`. -/
theorem Value.Agrees.null_or_text {value : Value} (h : value.Agrees members ty)
    (htext : ty.isString = true ∨ ty = .any) (hdefinite : ty.Definite) :
    value = .null ∨ ∃ s, value = .text s := by
  rcases htext with hstring | rfl
  · exact h.null_or_kind (Ty.core_of_isString hstring)
  · exact absurd rfl hdefinite.1

/-- The right operand of a connective is a truth value. -/
theorem Operator.ends_connective {op : Operator} (hlogical : op.isLogical = true)
    (hfits : (BinaryOp.operator op).Fits a b ty) (htakes : (BinaryOp.operator op).Takes a b)
    (hr : right.Agrees members b) :
    Ends met (do return Value.boolean (← right.truth)) fun result => result.Agrees members ty := by
  have harithmetic : op.isArithmetic = false := by
    cases op <;> first | rfl | cases hlogical
  obtain ⟨-, rfl⟩ := htakes.1 hlogical
  rcases hr.null_or_kind rfl with rfl | ⟨truth, rfl⟩
  · exact .ok (hfits.boolean harithmetic false).1.agrees
  · exact .ok (hfits.boolean harithmetic truth).1.agrees

/-- Operations on two values of the kinds that they stand on keep to the kinds. Only cuts meet
counts. -/
theorem BinaryOp.ends_apply {op : BinaryOp} (hpower : op ≠ .operator .power)
    (hfits : op.Fits a b ty) (htakes : op.Takes a b) (ha : a.Definite) (hb : b.Definite)
    (hty : ty.Definite) (hl : left.Agrees members a) (hr : right.Agrees members b)
    (hundecided : op.decided? left = .ok none) :
    Ends ((op = .take ∨ op = .skip) ∧ right = .null) (op.apply ty left right)
      fun result => result.Agrees members ty := by
  cases op with
  | operator op =>
    generalize ((BinaryOp.operator op = .take ∨ BinaryOp.operator op = .skip) ∧ right = .null) = met
    cases hlogical : op.isLogical with
    | true =>
      have hends : Ends met (do return Value.boolean (← right.truth))
          fun result => result.Agrees members ty :=
        Operator.ends_connective hlogical hfits htakes hr
      cases op <;> first | exact hends | cases hlogical
    | false =>
      have hends : Ends met (op.apply ty left right) fun result => result.Agrees members ty :=
        op.ends_apply (fun h => hpower (h ▸ rfl)) hlogical hfits htakes ha hb hty hl hr
      cases op <;> first | exact hends | cases hlogical
  | compareText =>
    cases hfits
    obtain ⟨order, horder⟩ : ∃ order, Value.compare left right = some order := by
      rcases hl.null_or_text (.inl htakes.1) ha with rfl | ⟨s, rfl⟩ <;>
        rcases hr.null_or_text (.inl htakes.2) hb with rfl | ⟨t, rfl⟩ <;> exact ⟨_, rfl⟩
    unfold apply
    dsimp only
    rw [horder]
    cases order <;> exact .ok (.scalar rfl rfl)
  | textTest test =>
    cases hfits
    rcases hl.null_or_text htakes.1 ha with rfl | ⟨s, rfl⟩ <;>
      rcases hr.null_or_text htakes.2 hb with rfl | ⟨t, rfl⟩ <;> exact .ok (.boolean _)
  | take =>
    cases hfits
    obtain ⟨items, rfl⟩ := eq_list_of_undecided (.inl rfl) hundecided
    exact (ends_cut htakes.2 hl hr fun n item => List.mem_of_mem_take).mono
      (fun h => ⟨.inl rfl, h⟩) fun _ h => h
  | skip =>
    cases hfits
    obtain ⟨items, rfl⟩ := eq_list_of_undecided (.inr rfl) hundecided
    exact (ends_cut htakes.2 hl hr fun n item => List.mem_of_mem_drop).mono
      (fun h => ⟨.inr rfl, h⟩) fun _ h => h

/-- A binder keeps to the kinds if its body does for every item. -/
theorem Binder.ends_apply {binder : Binder} {source : Value} {item : Ty}
    {body : Value → Except RunFault Value} (hfits : binder.Fits a item b ty)
    (hbinder : binder ≠ .given) (hsource : source.Agrees members a)
    (hbody : ∀ items, source = .list items → ∀ value ∈ items, value.Agrees members item →
      Ends met (body value) fun result => result.Agrees members b) :
    Ends met (binder.apply source body) fun result => result.Agrees members ty := by
  have hlist : a = .list item := by
    cases binder with
    | given => exact absurd rfl hbinder
    | filter | orderBy _ | project => exact hfits.1
  subst hlist
  have hbodies : ∀ items, source = .list items → ∀ value ∈ items,
      Ends met (body value) fun result => result.Agrees members b := by
    rintro items rfl value hvalue
    exact hbody items rfl value hvalue (hsource.item value hvalue)
  cases binder with
  | given => exact absurd rfl hbinder
  | filter =>
    obtain ⟨-, rfl⟩ := hfits
    refine .bind (hsource.sequence rfl) fun items? _ hitems => ?_
    rcases hitems with ⟨items, rfl, hitems⟩ | ⟨rfl, rfl⟩
    · refine .bind (.filterM fun value hvalue => ?_) fun kept _ hkept => .ok ?_
      · exact .bind (hbodies items hitems value hvalue) fun _ _ _ => .ok trivial
      · subst hitems
        exact hsource.sublist hkept
    · exact .ok .null
  | project =>
    obtain ⟨-, rfl⟩ := hfits
    refine .bind (hsource.sequence rfl) fun items? _ hitems => ?_
    rcases hitems with ⟨items, rfl, hitems⟩ | ⟨rfl, rfl⟩
    · exact .bind (.mapM (hbodies items hitems)) fun results _ hresults => .ok (.list rfl hresults)
    · exact .ok .null
  | orderBy descending =>
    obtain ⟨-, rfl⟩ := hfits
    refine .bind (hsource.sequence rfl) fun items? _ hitems => ?_
    rcases hitems with ⟨items, rfl, rfl⟩ | ⟨rfl, rfl⟩
    · have hkeys : ∀ value ∈ items, Ends met (do return (← body value, value))
          fun pair : Value × Value => pair.2 ∈ items := fun value hvalue =>
        .bind (hbodies items rfl value hvalue) fun key _ _ => .ok hvalue
      refine .bind (.mapM hkeys) fun keyed _ hkeyed => .ok ?_
      refine hsource.sublist fun value hvalue => ?_
      have hmem := (Value.sortKeyed_perm descending keyed).mem_iff.mp hvalue
      obtain ⟨pair, hpair, rfl⟩ := List.mem_map.mp hmem
      exact hkeyed pair hpair
    · exact .ok .null

/-- Values that agree with the types of the fields make a record of the record type. -/
theorem Value.agrees_newRecord {fields : Signature} {values : List Value}
    (h : List.Forall₂ (fun ty value => Value.Agrees members value ty)
      (fields.map Prod.snd) values) :
    (Value.newRecord fields values).Agrees members (.record fields) := by
  have hlength : values.length = fields.length := by
    rw [← h.length_eq, List.length_map]
  rw [newRecord_of_length hlength]
  refine .record rfl hlength fun i field value hfield hvalue => ?_
  have hrel := rel_getElem?_of_forall₂ h i
  rw [List.getElem?_map, hfield, hvalue] at hrel
  cases hrel with
  | some hagrees => exact hagrees

/-- The values of parameters agree with the types at which they may be referred to, and none is
missing. -/
def Environment.Supplies (members : Members) (Γ : Typing) (environment : Environment) : Prop :=
  ∀ name ty, Γ name ty →
    ∃ value, environment.lookup name = some value ∧ value.Agrees members ty

/-- An environment supplies a further parameter with a value that agrees with its type. -/
theorem Environment.Supplies.bind {Γ : Typing} {environment : Environment} {name : String}
    {item : Ty} {value : Value} (h : environment.Supplies members Γ)
    (hvalue : value.Agrees members item) :
    Environment.Supplies members (Γ.bind name item) ((name, value) :: environment) := by
  intro other ty hty
  by_cases hname : other = name
  · subst hname
    unfold Typing.bind at hty
    rw [if_pos rfl] at hty
    exact ⟨value, List.lookup_cons_self, hty ▸ hvalue⟩
  · rw [List.lookup_cons, beq_false_of_ne hname]
    exact h other ty ((Typing.bind_of_ne hname).mp hty)

namespace Plan

/-- The run of a plan in an environment comes to a cut of a list whose count is `null`. -/
inductive MeetsNullCount (services : Services) : Environment → Plan → Prop
  | here {environment : Environment} {ty : Ty} {op : BinaryOp} {left right : Plan}
      {items : List Value} (hop : op = .take ∨ op = .skip)
      (hleft : left.eval services environment = .ok (.list items))
      (hright : right.eval services environment = .ok .null) :
      MeetsNullCount services environment (binary ty op left right)
  | operand {environment : Environment} {ty : Ty} {op : UnaryOp} {operand : Plan}
      (h : MeetsNullCount services environment operand) :
      MeetsNullCount services environment (unary ty op operand)
  | left {environment : Environment} {ty : Ty} {op : BinaryOp} {left right : Plan}
      (h : MeetsNullCount services environment left) :
      MeetsNullCount services environment (binary ty op left right)
  | right {environment : Environment} {ty : Ty} {op : BinaryOp} {left right : Plan} {first : Value}
      (hleft : left.eval services environment = .ok first)
      (hundecided : op.decided? first = .ok none)
      (h : MeetsNullCount services environment right) :
      MeetsNullCount services environment (binary ty op left right)
  | test {environment : Environment} {ty : Ty} {test yes no : Plan}
      (h : MeetsNullCount services environment test) :
      MeetsNullCount services environment (cond ty test yes no)
  | branch {environment : Environment} {ty : Ty} {test yes no : Plan} {value : Value}
      {chosen : Bool} (htest : test.eval services environment = .ok value)
      (hchosen : chooses value = .ok chosen)
      (h : MeetsNullCount services environment (if chosen then yes else no)) :
      MeetsNullCount services environment (cond ty test yes no)
  | source {environment : Environment} {ty : Ty} {binder : Binder} {source body : Plan}
      {name : String} (h : MeetsNullCount services environment source) :
      MeetsNullCount services environment (bind ty binder source name body)
  | body {environment : Environment} {ty : Ty} {binder : Binder} {source body : Plan}
      {name : String} {items : List Value} {value : Value}
      (hsource : source.eval services environment = .ok (.list items)) (hvalue : value ∈ items)
      (h : MeetsNullCount services ((name, value) :: environment) body) :
      MeetsNullCount services environment (bind ty binder source name body)
  | field {environment : Environment} {ty : Ty} {fields : Signature} {values : List Plan}
      {value : Plan} (hvalue : value ∈ values) (h : MeetsNullCount services environment value) :
      MeetsNullCount services environment (record ty fields values)

/-- What the compiler checks of a node, with nodes of dynamic types, of floats and of powers left
out. -/
structure Strict (plan : Plan) : Prop where
  standsWell : plan.StandsWell
  definite : plan.ty.Definite
  powerless : ∀ ty left right, plan ≠ binary ty (.operator .power) left right

mutual

/-- The operators of a node of a plan are operators of the plan. -/
theorem mem_operators_of_mem_nodes {node : Plan} {op : Operator} (hop : op ∈ node.operators) :
    (plan : Plan) → node ∈ plan.nodes → op ∈ plan.operators
  | const _ _, h | param _ _, h => by
    cases List.mem_singleton.mp h
    exact hop
  | unary _ _ operand, h => by
    rcases List.mem_cons.mp h with rfl | hoperand
    · exact hop
    · exact mem_operators_of_mem_nodes hop operand hoperand
  | binary _ _ left right, h => by
    rcases List.mem_cons.mp h with rfl | hbelow
    · exact hop
    · rcases List.mem_append.mp hbelow with hleft | hright
      · exact List.mem_append_right _
          (List.mem_append_left _ (mem_operators_of_mem_nodes hop left hleft))
      · exact List.mem_append_right _
          (List.mem_append_right _ (mem_operators_of_mem_nodes hop right hright))
  | cond _ test yes no, h => by
    rcases List.mem_cons.mp h with rfl | hbelow
    · exact hop
    · rcases List.mem_append.mp hbelow with htest | hbranch
      · exact List.mem_append_left _ (mem_operators_of_mem_nodes hop test htest)
      · rcases List.mem_append.mp hbranch with hyes | hno
        · exact List.mem_append_right _
            (List.mem_append_left _ (mem_operators_of_mem_nodes hop yes hyes))
        · exact List.mem_append_right _
            (List.mem_append_right _ (mem_operators_of_mem_nodes hop no hno))
  | bind _ _ source _ body, h => by
    rcases List.mem_cons.mp h with rfl | hbelow
    · exact hop
    · rcases List.mem_append.mp hbelow with hsource | hbody
      · exact List.mem_append_left _ (mem_operators_of_mem_nodes hop source hsource)
      · exact List.mem_append_right _ (mem_operators_of_mem_nodes hop body hbody)
  | record _ _ plans, h | call _ _ _ _ plans, h => by
    rcases List.mem_cons.mp h with rfl | hbelow
    · exact hop
    · exact mem_operatorsAll_of_mem_nodesAll hop plans hbelow

/-- The operators in a node of several plans are among those of the plans. -/
theorem mem_operatorsAll_of_mem_nodesAll {node : Plan} {op : Operator} (hop : op ∈ node.operators) :
    (plans : List Plan) → node ∈ nodesAll plans → op ∈ operatorsAll plans
  | [], h => absurd h List.not_mem_nil
  | plan :: rest, h => by
    rcases List.mem_append.mp h with hplan | hrest
    · exact List.mem_append_left _ (mem_operators_of_mem_nodes hop plan hplan)
    · exact List.mem_append_right _ (mem_operatorsAll_of_mem_nodesAll hop rest hrest)

end

/-- The nodes of a vetted plan of definite nodes without powers are strict. -/
theorem Vetted.strict {plan : Plan} (h : plan.Vetted)
    (hdefinite : plan.Every fun node => node.ty.Definite)
    (hpower : Operator.power ∉ plan.operators) : plan.Every Strict := by
  intro node hnode
  refine ⟨h node hnode, hdefinite node hnode, ?_⟩
  rintro ty left right rfl
  exact hpower (mem_operators_of_mem_nodes (List.mem_append_left _ List.mem_cons_self) plan hnode)

variable {A : Assumptions} {listed : List String} {Γ : Typing} {plan : Plan} {services : Services}
variable {environment : Environment}

/-- Plans are evaluated to values with the properties that each ends with. -/
theorem ends_evalAll {plans : List Plan} {post : Plan → Value → Prop}
    (h : ∀ plan ∈ plans, Ends met (plan.eval services environment) (post plan)) :
    Ends met (evalAll services environment plans) fun values =>
      List.Forall₂ post plans values := by
  induction plans with
  | nil =>
    unfold evalAll
    exact .ok .nil
  | cons plan rest ih =>
    unfold evalAll
    refine .bind (h plan List.mem_cons_self) fun value _ hvalue => ?_
    exact .bind (ih fun other hother => h other (List.mem_cons_of_mem _ hother))
      fun values _ hvalues => .ok (.cons hvalue hvalues)

/-- The run of a well-typed plan of strict nodes gives a value of the kind of its type, or fails
because of its data, or comes to a count that is `null`. -/
theorem Typed.ends_eval (h : Typed A listed Γ plan) (hstrict : plan.Every Strict)
    (henvironment : environment.Supplies A.members Γ) :
    Ends (plan.MeetsNullCount services environment) (plan.eval services environment)
      fun value => value.Agrees A.members plan.ty := by
  -- on the typing of the plan; a `null` count that is met below is met in the whole
  induction h generalizing environment with
  | const _ hvalue =>
    unfold eval
    exact .ok hvalue.agrees
  | @param Γ ty name hparam =>
    obtain ⟨value, hlookup, hvalue⟩ := henvironment name ty hparam
    unfold eval
    rw [hlookup]
    exact .ok hvalue
  | unary _ hfits ih =>
    obtain ⟨hnode, hoperand⟩ := every_unary.mp hstrict
    unfold eval
    refine .bind ((ih hoperand henvironment).mono .operand fun _ h => h) fun value _ hvalue => ?_
    exact UnaryOp.ends_apply hfits hnode.standsWell hoperand.here.definite hvalue
  | @binary Γ ty op left right _ _ hfits ihl ihr =>
    obtain ⟨hnode, hleft, hright⟩ := every_binary.mp hstrict
    have hpower : op ≠ .operator .power := by
      rintro rfl
      exact hnode.powerless _ _ _ rfl
    unfold eval
    refine .bind ((ihl hleft henvironment).mono .left fun _ h => h) fun first hfirst hl => ?_
    refine .bind (BinaryOp.ends_decided? hfits hnode.standsWell hl)
      fun decided? hdecided hresult => ?_
    -- the right operand runs only where the left one leaves it open
    cases decided? with
    | some result => exact .ok (hresult result rfl)
    | none =>
      refine .bind ((ihr hright henvironment).mono (.right hfirst hdecided) fun _ h => h)
        fun second hsecond hr => ?_
      refine (BinaryOp.ends_apply hpower hfits hnode.standsWell hleft.here.definite
        hright.here.definite hnode.definite hl hr hdecided).mono ?_ fun _ h => h
      rintro ⟨hop, rfl⟩
      obtain ⟨items, rfl⟩ := BinaryOp.eq_list_of_undecided hop hdecided
      exact .here hop hfirst hsecond
  | @cond Γ ty test yes no _ _ _ hty iht ihy ihn =>
    obtain ⟨hnode, htest, hyes, hno⟩ := every_cond.mp hstrict
    have hboolean : test.ty = .boolean := hnode.standsWell
    obtain ⟨hyesTy, hnoTy⟩ := hty.resolve_left fun hany =>
      hnode.definite.1 (congrArg Ty.core hany)
    unfold eval
    refine .bind ((iht htest henvironment).mono .test fun _ h => h) fun value htested hvalue => ?_
    rw [hboolean] at hvalue
    have hchooses : ∃ chosen, chooses value = .ok chosen := by
      rcases hvalue.null_or_kind rfl with rfl | ⟨chosen, rfl⟩ <;> exact ⟨_, rfl⟩
    obtain ⟨chosen, hchosen⟩ := hchooses
    rw [hchosen]
    cases chosen with
    | true =>
      exact (ihy hyes henvironment).mono (.branch htested hchosen) fun value h => hyesTy ▸ h
    | false => exact (ihn hno henvironment).mono (.branch htested hchosen) fun value h => hnoTy ▸ h
  | bind _ _ hfits ihs ihb =>
    obtain ⟨hnode, hsource, hbody⟩ := every_bind.mp hstrict
    unfold eval
    refine .bind ((ihs hsource henvironment).mono .source fun _ h => h) fun list hlist hvalue => ?_
    refine Binder.ends_apply hfits hnode.standsWell hvalue fun items hitems value hmem hitem => ?_
    exact (ihb hbody (henvironment.bind hitem)).mono (.body (hitems ▸ hlist) hmem) fun _ h => h
  | @record Γ fields values _ htys ih =>
    obtain ⟨-, hvalues⟩ := List.forall_mem_cons.mp hstrict
    unfold eval
    refine .bind (ends_evalAll fun plan hplan =>
      (ih plan hplan (every_of_mem_nodesAll hvalues hplan) henvironment).mono (.field hplan)
        fun _ h => h) fun results _ hresults => .ok ?_
    refine Value.agrees_newRecord ?_
    rw [← htys, List.forall₂_map_left_iff]
    exact hresults
  | call => exact hstrict.here.standsWell.elim

end Plan

end TypedQuery
