import TypedQuery.Proofs.Plan.Comparing
import TypedQuery.Proofs.Value.Exactness

/-!
# Calculating with integers

Arithmetic on two integers takes place at the kind of the left one. The right one is converted to
that kind, a constant beforehand if it fits, and both become nullable if one of them is. So the node
of the operator is of the kind of the left operand, and what it gives is the exact result, or a
failure that says why there is none of that kind. Only a power with a negative exponent leaves the
kind of its node.
-/

namespace TypedQuery

namespace Ty

variable {ty : Ty} {kind : IntKind}

/-- A type has the kind of the integers underneath it. -/
theorem intKind?_eq_some_iff : ty.intKind? = some kind ↔ ty.underlying = .int kind := by
  unfold intKind?
  cases ty.underlying <;> simp

/-- The core of a type with a kind is that of integers. -/
theorem core_of_intKind? (h : ty.intKind? = some kind) : ty.core = .int kind :=
  core_of_underlying (intKind?_eq_some_iff.mp h)

/-- A type with a kind is exact. -/
theorem isExact_of_intKind? (h : ty.intKind? = some kind) : ty.isExact = true :=
  isExact_iff.mpr (.inl ⟨kind, intKind?_eq_some_iff.mp h⟩)

end Ty

namespace Plan

variable {members : Members} {schema : Schema} {op : Operator} {plan other left right : Plan}
  {ty : Ty} {kind : IntKind} {services : Services} {environment : Environment}

/-- Where a plan of integers gives a value of its type, the other plan gives the integer at a kind,
if it is in range. -/
def Narrows (members : Members) (kind : IntKind) (plan other : Plan) : Prop :=
  ∀ services environment value, plan.eval services environment = .ok value →
    value.Conforms members plan.ty → Value.Narrowed kind value (other.eval services environment)

/-- A plan of the kind stays as it is. -/
theorem narrows_self (hplan : plan.ty.intKind? = some kind) : Narrows members kind plan plan := by
  intro services environment value heval hvalue
  rw [heval]
  exact hvalue.narrowed (Ty.core_of_intKind? hplan)

/-- A conversion to a type of the kind stands on the plan itself or on its value. -/
theorem eval_convert (plan : Plan) (ty : Ty) :
    plan.ty = ty ∧ plan.convert ty = plan ∨
      ∀ services environment, (plan.convert ty).eval services environment =
        plan.eval services environment >>= fun value => value.convert ty := by
  unfold convert
  split
  · exact .inl ⟨‹_›, rfl⟩
  · exact .inr fun _ _ => rfl

/-- A plan that was brought to a kind stays there under a conversion to it. -/
theorem Narrows.convert (h : Narrows members kind plan other) (hty : ty.core = .int kind) :
    Narrows members kind plan (other.convert ty) := by
  intro services environment value heval hvalue
  rcases eval_convert other ty with ⟨-, hsame⟩ | hconvert
  · rw [hsame]
    exact h services environment value heval hvalue
  · rw [hconvert]
    exact (h services environment value heval hvalue).convert hty

/-- An operand of another kind is converted, and a constant that fits beforehand. -/
theorem narrows_convertLike {source : IntKind} (hplan : plan.ty.intKind? = some source)
    (hne : source ≠ kind) : Narrows members kind plan (plan.convertLike (.int kind)) := by
  have hunder : ((Ty.int kind).nullableLike plan.ty).underlying = .int kind :=
    Ty.underlying_nullableLike plan.ty (.inr ⟨kind, rfl⟩)
  have hcore := Ty.core_of_underlying hunder
  intro services environment value heval hvalue
  unfold convertLike convertOperand
  split
  · rename_i folded hfolded
    unfold folded? at hfolded
    rw [hunder] at hfolded
    cases hconstant : plan.constant? with
    | none =>
      rw [hconstant] at hfolded
      cases hfolded
    | some constant =>
      rw [hconstant] at hfolded
      rw [eval_of_constant? hconstant] at heval
      cases heval
      obtain ⟨n, hinteger, hresult⟩ := Option.bind_eq_some_iff.mp hfolded
      rcases hvalue.null_or_isInt (Ty.core_of_intKind? hplan) with rfl | ⟨m, hm, -⟩
      · cases hinteger
      · cases hm.2.symm.trans hinteger
        exact Value.narrowed_ofInt? hm hresult
  · rcases eval_convert plan ((Ty.int kind).nullableLike plan.ty) with ⟨hsame, -⟩ | hconvert
    · have hkind := (congrArg Ty.intKind? hsame).trans (Ty.intKind?_eq_some_iff.mpr hunder)
      exact absurd (Option.some.inj (hplan.symm.trans hkind)) hne
    · rw [hconvert, heval]
      exact hvalue.narrowed_convert (Ty.core_of_intKind? hplan) hcore

/-- Two operands are brought to a kind. -/
structure Gathers (members : Members) (kind : IntKind) (left right : Plan)
    (gathered : Plan × Plan) : Prop where
  left : Narrows members kind left gathered.1
  right : Narrows members kind right gathered.2
  leftKind : gathered.1.ty.intKind? = some kind
  rightKind : gathered.2.ty.intKind? = some kind

/-- Outside of comparisons, the right operand takes the kind of the left one. -/
theorem gathers_coerceNumeric {source : IntKind} (hleft : left.ty.intKind? = some kind)
    (hright : right.ty.intKind? = some source) :
    Gathers members kind left right (coerceNumeric false left right) := by
  unfold coerceNumeric
  rw [Ty.intKind?_eq_some_iff.mp hleft, Ty.intKind?_eq_some_iff.mp hright]
  dsimp only
  unfold coerceKinds
  split
  · rename_i hsame
    subst hsame
    exact ⟨narrows_self hleft, narrows_self hright, hleft, hright⟩
  · rename_i hne
    rw [if_neg Bool.false_ne_true]
    refine ⟨narrows_self hleft, narrows_convertLike hright (Ne.symm hne), hleft, ?_⟩
    exact Ty.intKind?_eq_some_iff.mpr (convertLike_underlying (.inr ⟨kind, rfl⟩))

/-- Operands of one kind are made nullable together. -/
theorem Gathers.aligned {gathered : Plan × Plan} (h : Gathers members kind left right gathered) :
    Gathers members kind left right (alignNullability gathered.1 gathered.2) ∧
      (alignNullability gathered.1 gathered.2).1.ty =
        (alignNullability gathered.1 gathered.2).2.ty := by
  obtain ⟨hleft, hright, hl, hr⟩ := h
  have hsame : gathered.1.ty.underlying = gathered.2.ty.underlying := by
    rw [Ty.intKind?_eq_some_iff.mp hl, Ty.intKind?_eq_some_iff.mp hr]
  have hconverted : ∀ plan : Plan, (plan.convert gathered.1.ty).ty = gathered.1.ty ∧
      (plan.convert gathered.2.ty).ty = gathered.2.ty :=
    fun plan => ⟨convert_ty plan _, convert_ty plan _⟩
  unfold alignNullability
  cases hn : gathered.1.ty.isNullable with
  | true =>
    cases hn' : gathered.2.ty.isNullable with
    | true => exact ⟨⟨hleft, hright, hl, hr⟩, Ty.eq_of_underlying hsame (hn.trans hn'.symm)⟩
    | false =>
      have hplain : gathered.1.ty.underlying = gathered.2.ty := by
        rw [hsame, Ty.underlying_of_isNullable hn']
      rw [if_pos (by simpa using hplain)]
      refine ⟨⟨hleft, hright.convert (Ty.core_of_intKind? hl), hl, ?_⟩, ?_⟩
      · exact (congrArg Ty.intKind? (hconverted _).1).trans hl
      · exact (hconverted _).1.symm
  | false =>
    cases hn' : gathered.2.ty.isNullable with
    | true =>
      have hplain : gathered.2.ty.underlying = gathered.1.ty := by
        rw [← hsame, Ty.underlying_of_isNullable hn]
      rw [if_neg (by simp), if_pos (by simpa using hplain)]
      refine ⟨⟨hleft.convert (Ty.core_of_intKind? hr), hright, ?_, hr⟩, ?_⟩
      · exact (congrArg Ty.intKind? (hconverted _).2).trans hr
      · exact (hconverted _).2
    | false => exact ⟨⟨hleft, hright, hl, hr⟩, Ty.eq_of_underlying hsame (hn.trans hn'.symm)⟩

/-- Arithmetic on two integers is an operator on operands that were brought to the kind of the left
one. -/
theorem exists_gathered (members : Members) (schema : Schema) (op : Operator) (left right : Plan)
    {source : IntKind} (hop : op.isArithmetic = true) (hleft : left.ty.intKind? = some kind)
    (hright : right.ty.intKind? = some source) :
    ∃ gathered, Gathers members kind left right gathered ∧
      reconcile schema op left right =
        .ok (operator op gathered.1 gathered.2 gathered.1.ty) := by
  have hplain : op.isLogical = false ∧ op.isComparison = false ∧ op.isEquality = false ∧
      op.isRelational = false := by
    cases op <;> first | exact ⟨rfl, rfl, rfl, rfl⟩ | cases hop
  have hnumbers : Gathers members kind left right _ := gathers_coerceNumeric hleft hright
  obtain ⟨haligned, hsame⟩ := hnumbers.aligned
  refine ⟨_, haligned, ?_⟩
  rw [reconcile_of_numbers schema hplain.1 (Ty.isExact_of_intKind? hleft)
    (Ty.isExact_of_intKind? hright), hplain.2.1]
  have hnumeric : (alignNullability (coerceNumeric false left right).1
      (coerceNumeric false left right).2).1.ty.isNumeric = true := by
    unfold Ty.isNumeric
    rw [Ty.intKind?_eq_some_iff.mp haligned.leftKind]
  unfold direct
  rw [hplain.2.1, hplain.2.2.1, hplain.2.2.2, if_neg (by simp), if_neg (not_not.mpr hsame),
    if_neg (by simp), hop, hnumeric]
  rfl

/-- What an arithmetic operator on integers gives, apart from powers. -/
theorem Gathers.calculated {gathered : Plan × Plan} {a b : Value}
    (h : Gathers members kind left right gathered) (hop : op.isArithmetic = true)
    (hpower : op ≠ .power) (hleft : left.ty.intKind? = some kind)
    (ha : left.eval services environment = .ok a) (hconforms : a.Conforms members left.ty)
    (hb : right.eval services environment = .ok b) (hconforms' : b.Conforms members right.ty) :
    Value.Calculated op kind a b
      ((operator op gathered.1 gathered.2 gathered.1.ty).eval services environment) := by
  rw [eval_operator_of_isArithmetic hop]
  exact Value.Narrowed.calculated hop hpower h.leftKind
    (fun m hm => hconforms.fits_of_isInt (Ty.core_of_intKind? hleft) hm)
    (h.left services environment a ha hconforms) (h.right services environment b hb hconforms')

/-- Sums, differences, products, quotients and remainders of integers of any two kinds, nullable or
not, are accepted, and they are exact at the kind of the left operand or reported. -/
theorem reconcile_calculates (schema : Schema) (op : Operator) (left right : Plan)
    {kind source : IntKind} (hop : op.isArithmetic = true) (hpower : op ≠ .power)
    (hleft : left.ty.intKind? = some kind) (hright : right.ty.intKind? = some source) :
    ∃ plan, reconcile schema op left right = .ok plan ∧ plan.ty.intKind? = some kind ∧
      ∀ services environment a b,
        left.eval services environment = .ok a → a.Conforms schema.members left.ty →
        right.eval services environment = .ok b → b.Conforms schema.members right.ty →
        Value.Calculated op kind a b (plan.eval services environment) := by
  obtain ⟨gathered, hgathers, haccepted⟩ :=
    exists_gathered schema.members schema op left right hop hleft hright
  exact ⟨_, haccepted, hgathers.leftKind, fun services environment a b ha hconforms hb hconforms' =>
    hgathers.calculated hop hpower hleft ha hconforms hb hconforms'⟩

/-- The least integer of 64 bits divided by -1 is reported, not wrapped. -/
theorem reconcile_calculates_least :
    ∃ plan, reconcile .empty .divide (.param (.int .i64) "a") (.param (.nullable (.int .i32)) "b") =
        .ok plan ∧
      plan.eval [] [("a", .int (-9223372036854775808)), ("b", .int (-1))] =
        .error (.overflow (.integers (-9223372036854775808) .divide (-1) .i64)) := by
  obtain ⟨plan, haccepted, -, hcalculates⟩ := reconcile_calculates .empty .divide
    (.param (.int .i64) "a") (.param (.nullable (.int .i32)) "b") rfl nofun rfl rfl
  have hleft : (Value.int (-9223372036854775808)).IsInt (-9223372036854775808) := ⟨rfl, rfl⟩
  have hright : (Value.int (-1)).IsInt (-1) := ⟨rfl, rfl⟩
  have hresult := hcalculates [] [("a", .int (-9223372036854775808)), ("b", .int (-1))] _ _ rfl
    (.int rfl (by decide)) rfl (.int rfl (by decide))
  refine ⟨plan, haccepted, ?_⟩
  generalize plan.eval _ _ = outcome at hresult ⊢
  cases hresult with
  | unfit hb hfits =>
    cases hb.unique hright
    cases hfits
  | null hnull _ => exact absurd hnull (by simp)
  | byZero _ hb _ => cases hb.unique hright
  | exact ha hb _ hyields hfits _ =>
    cases ha.unique hleft
    cases hb.unique hright
    cases (hyields 9223372036854775808).mp ⟨0, by decide, by decide, by decide⟩
    cases hfits
  | overflow ha hb _ _ _ =>
    cases ha.unique hleft
    cases hb.unique hright
    rfl

/-- Powers of integers of one kind, nullable or not, are accepted at that kind. They are exact or
reported as long as the exponent is a natural number below 2³². A larger exponent is refused even
where the power is in range, and a negative one gives a decimal, although the node is of the kind of
integers. -/
theorem reconcile_powers (schema : Schema) (left right : Plan) {kind : IntKind}
    (hleft : left.ty.intKind? = some kind) (hright : right.ty.intKind? = some kind) :
    ∃ plan, reconcile schema .power left right = .ok plan ∧ plan.ty.intKind? = some kind ∧
      ∀ services environment a b m n,
        left.eval services environment = .ok a → a.Conforms schema.members left.ty →
        right.eval services environment = .ok b → b.Conforms schema.members right.ty →
        a.IsInt m → b.IsInt n → Value.Powered kind m n (plan.eval services environment) := by
  obtain ⟨gathered, hgathers, haccepted⟩ :=
    exists_gathered schema.members schema .power left right rfl hleft hright
  refine ⟨_, haccepted, hgathers.leftKind, ?_⟩
  intro services environment a b m n ha hconforms hb hconforms' hm hn
  have hfits := hconforms.fits_of_isInt (Ty.core_of_intKind? hleft) hm
  have hfits' := hconforms'.fits_of_isInt (Ty.core_of_intKind? hright) hn
  obtain ⟨x, hx, hxm⟩ :=
    (hgathers.left services environment a ha hconforms).exists_isInt hm hfits
  obtain ⟨y, hy, hyn⟩ :=
    (hgathers.right services environment b hb hconforms').exists_isInt hn hfits'
  rw [eval_operator_of_isArithmetic rfl, hx, hy]
  change Value.Powered kind m n (Value.arithmetic .power x y _)
  rw [Value.arithmetic_of_isInt hxm hyn hgathers.leftKind]
  exact Value.powered_integerPower hfits hfits'

/-- No power of 1 with an exponent of more than 32 bits is computed. -/
theorem reconcile_powers_of_one :
    ∃ plan, reconcile .empty .power (.param (.int .i64) "a") (.param (.int .i64) "b") = .ok plan ∧
      plan.eval [] [("a", .int 1), ("b", .int 4294967296)] =
        .error (.overflow (.integers 1 .power 4294967296 .i64)) := by
  obtain ⟨plan, haccepted, -, hpowers⟩ := reconcile_powers .empty
    (.param (.int .i64) "a") (.param (.int .i64) "b") rfl rfl
  have hresult := hpowers [] [("a", .int 1), ("b", .int 4294967296)] _ _ 1 4294967296 rfl
    (.int rfl (by decide)) rfl (.int rfl (by decide)) ⟨rfl, rfl⟩ ⟨rfl, rfl⟩
  refine ⟨plan, haccepted, ?_⟩
  generalize plan.eval _ _ = outcome at hresult ⊢
  cases hresult with
  | exact hn hlimit _ _ => omega
  | overflow _ _ => rfl
  | fraction hn _ _ _ => cases hn
  | noFraction hn _ _ _ => cases hn

end Plan

end TypedQuery
