import TypedQuery.Proofs.Plan.Preservation
import TypedQuery.Proofs.Plan.Reconciling
import TypedQuery.Proofs.Value.Numbers

/-!
# Comparing integers and decimals

Operands of integer and decimal types, nullable or not, may always be compared. They are brought to
one type by conversions that keep their numbers: constants become other constants only in the range
of their new kind, and other operands only go to types that hold all numbers of the old one. So the
conversions never fail, and the comparison is that of the numbers.
-/

namespace TypedQuery

namespace Ty

variable {ty : Ty}

/-- The type is one of integers or decimals, nullable or not. -/
def isExact (ty : Ty) : Bool :=
  match ty.underlying with
  | .int _ | .decimal => true
  | _ => false

/-- Exact are the types of integers and decimals, nullable or not. -/
theorem isExact_iff :
    ty.isExact = true ↔ (∃ kind, ty.underlying = .int kind) ∨ ty.underlying = .decimal := by
  unfold isExact
  cases ty.underlying <;> simp

/-- A type has the core of the type underneath it. -/
theorem core_of_underlying {other : Ty} (h : ty.underlying = other) : ty.core = other.core := by
  rw [← h, core_underlying]

/-- Numbers are no texts. -/
theorem isString_of_isExact (h : ty.isExact = true) : ty.isString = false := by
  unfold isString
  rcases isExact_iff.mp h with ⟨kind, hunder⟩ | hunder
  · rw [hunder]
  · rw [hunder]

/-- Exact types hold their own values. -/
theorem holds_self (h : ty.isExact = true) : ty.Holds ty := by
  rcases isExact_iff.mp h with ⟨kind, hty⟩ | hty
  · exact .integers (core_of_underlying hty) (core_of_underlying hty) (by cases kind <;> rfl)
  · exact .decimals (core_of_underlying hty) (core_of_underlying hty)

/-- A type that is not nullable is the one underneath. -/
theorem underlying_of_isNullable (h : ty.isNullable = false) : ty.underlying = ty := by
  cases ty <;> first | rfl | cases h

/-- Types that are the same underneath differ in `nullable` only. -/
theorem eq_of_underlying {other : Ty} (hunder : ty.underlying = other.underlying)
    (hnullable : ty.isNullable = other.isNullable) : ty = other := by
  cases ty with
  | nullable inner =>
    cases other with
    | nullable inner' => exact congrArg _ hunder
    | _ => cases hnullable
  | _ =>
    cases other with
    | nullable inner' => cases hnullable
    | _ => exact hunder

/-- A type that is nullable like another one is the same type underneath. -/
theorem underlying_nullableLike (like : Ty) (h : ty = .decimal ∨ ∃ kind, ty = .int kind) :
    (ty.nullableLike like).underlying = ty := by
  unfold nullableLike
  rcases h with rfl | ⟨kind, rfl⟩
  · split <;> rfl
  · split <;> rfl

end Ty

namespace Plan

variable {members : Members} {plan left right : Plan} {ty : Ty} {kind : IntKind}

/-- Where a plan gives a value of its type, the other plan gives a value of its own type with the
same number. -/
def Keeps (members : Members) (plan other : Plan) : Prop :=
  ∀ services environment value, plan.eval services environment = .ok value →
    value.Conforms members plan.ty →
    ∃ result, other.eval services environment = .ok result ∧ result.Conforms members other.ty ∧
      result.number? = value.number?

/-- A plan keeps its own numbers. -/
theorem Keeps.refl (plan : Plan) : Keeps members plan plan :=
  fun _ _ value heval hvalue => ⟨value, heval, hvalue, rfl⟩

/-- Numbers that are kept twice are kept. -/
theorem Keeps.trans {other last : Plan} (h : Keeps members plan other)
    (hlast : Keeps members other last) : Keeps members plan last := by
  intro services environment value heval hvalue
  obtain ⟨between, hbetween, hconforms, hnumber⟩ := h services environment value heval hvalue
  obtain ⟨result, hresult, hfinal, hsame⟩ := hlast services environment between hbetween hconforms
  exact ⟨result, hresult, hfinal, hsame.trans hnumber⟩

/-- A conversion has the type that it converts to. -/
theorem convert_ty (plan : Plan) (ty : Ty) : (plan.convert ty).ty = ty := by
  unfold convert
  split
  · assumption
  · rfl

/-- A converted operand has the type that it is converted to. -/
theorem convertOperand_ty (plan : Plan) (ty : Ty) : (plan.convertOperand ty).ty = ty := by
  unfold convertOperand
  split
  · rfl
  · exact convert_ty plan ty

/-- A conversion to a type that holds the numbers of the operand keeps them. -/
theorem keeps_convert (h : ty.Holds plan.ty) : Keeps members plan (plan.convert ty) := by
  intro services environment value heval hvalue
  by_cases hty : plan.ty = ty
  · unfold convert
    rw [if_pos hty]
    exact ⟨value, heval, hvalue, rfl⟩
  · obtain ⟨result, hresult, hconforms, hnumber⟩ := hvalue.convert_number? h
    rw [← convert_ty plan ty] at hconforms
    refine ⟨result, ?_, hconforms, hnumber⟩
    unfold convert
    rw [if_neg hty, eval, heval]
    exact hresult

/-- What a constant becomes at a type of integers or decimals has the number of the constant. -/
theorem keeps_folded {folded : Value} (hplan : plan.ty.isExact = true) (hty : ty.isExact = true)
    (hfolded : plan.folded? ty = some folded) : Keeps members plan (const ty folded) := by
  intro services environment value heval hvalue
  have hconforms : folded.Conforms members ty := (folded?_scalar hfolded).2
  refine ⟨folded, rfl, hconforms, ?_⟩
  unfold folded? at hfolded
  split at hfolded
  · rename_i constant kind hconstant _
    rw [eval_of_constant? hconstant] at heval
    cases heval
    obtain ⟨n, hinteger, hofInt⟩ := Option.bind_eq_some_iff.mp hfolded
    rw [Value.number?_of_ofInt? hofInt]
    rcases hvalue.null_or_number? (Ty.holds_self hplan) with rfl | ⟨x, hx⟩
    · cases hinteger
    · rw [hx, Value.eq_of_integer? hinteger hx]
  · rename_i n hconstant _
    rw [eval_of_constant? hconstant] at heval
    cases heval
    cases hfolded
    exact congrArg some (Decimal.toRat_ofInt64 n)
  · rename_i n hconstant _
    rw [eval_of_constant? hconstant] at heval
    cases heval
    cases hfolded
    exact congrArg some (Decimal.toRat_ofUInt64 n)
  · simp [Ty.isExact, *] at hty
  · simp [Ty.isExact, *] at hty
  · simp [Ty.isExact, *] at hty
  · cases hfolded

/-- An operand that is brought to a type keeps its numbers, if it becomes a constant or if the type
holds its numbers. -/
theorem keeps_convertOperand (hplan : plan.ty.isExact = true) (hty : ty.isExact = true)
    (h : (plan.folded? ty).isSome = true ∨ ty.Holds plan.ty) :
    Keeps members plan (plan.convertOperand ty) := by
  unfold convertOperand
  split
  · rename_i folded hfolded
    exact keeps_folded hplan hty hfolded
  · rename_i hnone
    rw [hnone] at h
    exact keeps_convert (h.resolve_left Bool.false_ne_true)

/-- A constant in the range of a kind becomes a constant of that kind. -/
theorem folded?_of_constantFits (hfits : plan.constantFits kind = true)
    (hty : ty.underlying = .int kind) : (plan.folded? ty).isSome = true := by
  unfold constantFits at hfits
  split at hfits
  · rename_i n hn
    obtain ⟨constant, hconstant, hinteger⟩ := Option.bind_eq_some_iff.mp hn
    obtain ⟨result, hresult, -⟩ := Value.exists_ofInt? hfits
    unfold folded?
    rw [hconstant, hty]
    simp [hinteger, hresult]
  · cases hfits

/-- A type that holds the numbers of an operand holds them as well if it is nullable like the
operand. -/
theorem keeps_convertLike (hplan : plan.ty.isExact = true)
    (hty : ty = .decimal ∨ ∃ kind, ty = .int kind)
    (h : (∀ like : Ty, (plan.folded? (ty.nullableLike like)).isSome = true) ∨ ty.Holds plan.ty) :
    Keeps members plan (plan.convertLike ty) := by
  have hunder := Ty.underlying_nullableLike plan.ty hty
  have hexact : (ty.nullableLike plan.ty).isExact = true := by
    rw [Ty.isExact_iff, hunder]
    exact hty.symm
  refine keeps_convertOperand hplan hexact (h.imp (fun hfolded => hfolded plan.ty) ?_)
  exact Ty.Holds.of_core_eq (Ty.core_nullableLike ty plan.ty)

/-- An operand that is converted like it was has the type, nullable or not. -/
theorem convertLike_underlying (hty : ty = .decimal ∨ ∃ kind, ty = .int kind) :
    (plan.convertLike ty).ty.underlying = ty := by
  unfold convertLike
  rw [convertOperand_ty, Ty.underlying_nullableLike _ hty]

/-- A constant keeps its number at a kind into whose range it falls. -/
theorem keeps_convertLike_fits (hplan : plan.ty.isExact = true)
    (hfits : plan.constantFits kind = true) : Keeps members plan (plan.convertLike (.int kind)) :=
  keeps_convertLike hplan (.inr ⟨kind, rfl⟩) (.inl fun _ =>
    folded?_of_constantFits hfits (Ty.underlying_nullableLike _ (.inr ⟨kind, rfl⟩)))

/-- An integer keeps its number at a kind that contains its own. -/
theorem keeps_widenTo {source : IntKind} (hplan : plan.ty.underlying = .int source)
    (hcontains : kind.contains source = true) :
    Keeps members plan (plan.widenTo kind) ∧ (plan.widenTo kind).ty.underlying = .int kind := by
  have hexact : plan.ty.isExact = true := Ty.isExact_iff.mpr (.inl ⟨source, hplan⟩)
  unfold widenTo
  split
  · rename_i hkind
    unfold Ty.intKind? at hkind
    rw [hplan] at hkind
    cases hkind
    exact ⟨.refl plan, hplan⟩
  · have hholds : (Ty.int kind).Holds plan.ty :=
      .integers rfl (Ty.core_of_underlying hplan) hcontains
    exact ⟨keeps_convertLike hexact (.inr ⟨kind, rfl⟩) (.inr hholds),
      convertLike_underlying (.inr ⟨kind, rfl⟩)⟩

/-- Both types are integers or both are decimals, nullable or not. -/
def Meet (a b : Ty) : Prop :=
  ((∃ kind, a.underlying = .int kind) ∧ ∃ kind, b.underlying = .int kind) ∨
    (a.underlying = .decimal ∧ b.underlying = .decimal)

/-- Two operands are brought to two others that keep their numbers and meet. -/
structure Brings (members : Members) (left right : Plan) (brought : Plan × Plan) : Prop where
  left : Keeps members left brought.1
  right : Keeps members right brought.2
  meet : Meet brought.1.ty brought.2.ty

/-- Operands that are brought in two steps are brought. -/
theorem Brings.trans {brought last : Plan × Plan} (h : Brings members left right brought)
    (hlast : Brings members brought.1 brought.2 last) : Brings members left right last :=
  ⟨h.left.trans hlast.left, h.right.trans hlast.right, hlast.meet⟩

/-- Integers of two kinds stay integers: nothing is narrowed but constants that fit. -/
theorem brings_coerceKinds {a b : IntKind} (hl : left.ty.underlying = .int a)
    (hr : right.ty.underlying = .int b) :
    Brings members left right (coerceKinds true a b left right) := by
  have hleft : left.ty.isExact = true := Ty.isExact_iff.mpr (.inl ⟨a, hl⟩)
  have hright : right.ty.isExact = true := Ty.isExact_iff.mpr (.inl ⟨b, hr⟩)
  unfold coerceKinds
  split
  · exact ⟨.refl left, .refl right, .inl ⟨⟨a, hl⟩, b, hr⟩⟩
  · rw [if_pos rfl]
    split
    · rename_i hfits
      exact ⟨.refl left, keeps_convertLike_fits hright hfits,
        .inl ⟨⟨a, hl⟩, a, convertLike_underlying (.inr ⟨a, rfl⟩)⟩⟩
    · split
      · rename_i hfits
        exact ⟨keeps_convertLike_fits hleft hfits, .refl right,
          .inl ⟨⟨b, convertLike_underlying (.inr ⟨b, rfl⟩)⟩, b, hr⟩⟩
      · split
        · rename_i kind hcommon
          have hcontains := List.find?_some
            (p := fun outer : IntKind => outer.contains a && outer.contains b) hcommon
          obtain ⟨hcontainsLeft, hcontainsRight⟩ := Bool.and_eq_true_iff.mp hcontains
          obtain ⟨hleft, hleftTy⟩ := keeps_widenTo hl hcontainsLeft
          obtain ⟨hright, hrightTy⟩ := keeps_widenTo hr hcontainsRight
          exact ⟨hleft, hright, .inl ⟨⟨kind, hleftTy⟩, kind, hrightTy⟩⟩
        · exact ⟨.refl left, .refl right, .inl ⟨⟨a, hl⟩, b, hr⟩⟩

/-- Numbers are brought to integers or to decimals. -/
theorem brings_coerceNumeric (hl : left.ty.isExact = true) (hr : right.ty.isExact = true) :
    Brings members left right (coerceNumeric true left right) := by
  have hdecimal : ∀ {plan : Plan} {kind : IntKind}, plan.ty.underlying = .int kind →
      Keeps members plan (plan.convertLike .decimal) ∧
        (plan.convertLike .decimal).ty.underlying = .decimal := by
    intro plan kind hty
    have hexact : plan.ty.isExact = true := Ty.isExact_iff.mpr (.inl ⟨kind, hty⟩)
    have hholds : Ty.decimal.Holds plan.ty := .integersAsDecimals rfl (Ty.core_of_underlying hty)
    exact ⟨keeps_convertLike hexact (.inl rfl) (.inr hholds), convertLike_underlying (.inl rfl)⟩
  rcases Ty.isExact_iff.mp hl with ⟨a, ha⟩ | ha
  · rcases Ty.isExact_iff.mp hr with ⟨b, hb⟩ | hb
    · unfold coerceNumeric
      rw [ha, hb]
      exact brings_coerceKinds ha hb
    · unfold coerceNumeric
      rw [ha, hb]
      exact ⟨(hdecimal ha).1, .refl right, .inr ⟨(hdecimal ha).2, hb⟩⟩
  · rcases Ty.isExact_iff.mp hr with ⟨b, hb⟩ | hb
    · unfold coerceNumeric
      rw [ha, hb]
      exact ⟨.refl left, (hdecimal hb).1, .inr ⟨ha, (hdecimal hb).2⟩⟩
    · unfold coerceNumeric
      rw [ha, hb]
      exact ⟨.refl left, .refl right, .inr ⟨ha, hb⟩⟩

/-- Types that meet are exact. -/
theorem Meet.isExact {a b : Ty} (h : Meet a b) : a.isExact = true ∧ b.isExact = true := by
  rcases h with ⟨ha, hb⟩ | ⟨ha, hb⟩
  · exact ⟨Ty.isExact_iff.mpr (.inl ha), Ty.isExact_iff.mpr (.inl hb)⟩
  · exact ⟨Ty.isExact_iff.mpr (.inr ha), Ty.isExact_iff.mpr (.inr hb)⟩

/-- An operand without `nullable` is brought to the same type with it. -/
theorem keeps_convert_of_underlying (hty : ty.underlying = plan.ty)
    (hplan : plan.ty.isExact = true) : Keeps members plan (plan.convert ty) := by
  have hcore : ty.core = plan.ty.core := by rw [← hty, Ty.core_underlying]
  exact keeps_convert (Ty.Holds.of_core_eq hcore (Ty.holds_self hplan))

/-- An exact type meets itself. -/
theorem Meet.self {a : Ty} (h : a.isExact = true) : Meet a a := by
  rcases Ty.isExact_iff.mp h with ha | ha
  · exact .inl ⟨ha, ha⟩
  · exact .inr ⟨ha, ha⟩

/-- Operands that meet get one type or are both integers. -/
theorem brings_alignNullability (h : Meet left.ty right.ty) :
    Brings members left right (alignNullability left right) ∧
      ((∃ a b, (alignNullability left right).1.ty.underlying = .int a ∧
          (alignNullability left right).2.ty.underlying = .int b) ∨
        (alignNullability left right).1.ty = (alignNullability left right).2.ty) := by
  obtain ⟨hleft, hright⟩ := h.isExact
  unfold alignNullability
  split
  · rename_i hcond
    have hty : left.ty.underlying = right.ty := (by simpa using hcond : _ ∧ _).2
    have hsame : (right.convert left.ty).ty = left.ty := convert_ty right left.ty
    refine ⟨⟨.refl left, keeps_convert_of_underlying hty hright, ?_⟩, .inr hsame.symm⟩
    exact hsame.symm ▸ Meet.self hleft
  · rename_i hfirst
    split
    · rename_i hcond
      have hty : right.ty.underlying = left.ty := (by simpa using hcond : _ ∧ _).2
      have hsame : (left.convert right.ty).ty = right.ty := convert_ty left right.ty
      refine ⟨⟨keeps_convert_of_underlying hty hleft, .refl right, ?_⟩, .inr hsame⟩
      exact hsame.symm ▸ Meet.self hright
    · rename_i hsecond
      refine ⟨⟨.refl left, .refl right, h⟩, ?_⟩
      rcases h with ⟨⟨a, ha⟩, b, hb⟩ | ⟨ha, hb⟩
      · exact .inl ⟨a, b, ha, hb⟩
      · refine .inr (Ty.eq_of_underlying (ha.trans hb.symm) ?_)
        cases hl : left.ty.isNullable with
        | true =>
          cases hr : right.ty.isNullable with
          | true => rfl
          | false =>
            have hplain : right.ty = .decimal := (Ty.underlying_of_isNullable hr).symm.trans hb
            exact absurd (by rw [hl, hr, ha, hplain]; rfl) hfirst
        | false =>
          cases hr : right.ty.isNullable with
          | false => rfl
          | true =>
            have hplain : left.ty = .decimal := (Ty.underlying_of_isNullable hl).symm.trans ha
            exact absurd (by rw [hl, hr, hb, hplain]; rfl) hsecond

/-- Operands that meet may be compared directly. -/
theorem direct_of_meet {op : Operator} (hop : op.isComparison = true)
    (h : (∃ a b, left.ty.underlying = .int a ∧ right.ty.underlying = .int b) ∨
      left.ty = right.ty) (hexact : left.ty.isExact = true) :
    direct op left right = .ok (operator op left right .boolean) := by
  have hkind : ∀ {ty : Ty} {kind : IntKind}, ty.underlying = .int kind →
      ty.intKind?.isSome = true := by
    intro ty kind hty
    unfold Ty.intKind?
    rw [hty]
    rfl
  unfold direct
  split
  · rfl
  · rename_i hkinds
    rcases h with ⟨a, b, ha, hb⟩ | hty
    · exact absurd (by simp [hop, hkind ha, hkind hb]) hkinds
    · rw [if_neg (not_not_intro hty), if_pos]
      unfold Operator.isComparison at hop
      have horderable : left.ty.isOrderable = true := by
        unfold Ty.isOrderable
        rcases Ty.isExact_iff.mp hexact with ⟨kind, hunder⟩ | hunder
        · rw [hunder]
        · rw [hunder]
      rwa [horderable, Bool.and_true]

/-- Two operands brought to one type where that is possible, to be compared. -/
def leveled (left right : Plan) : Plan × Plan :=
  alignNullability (coerceNumeric true left right).1 (coerceNumeric true left right).2

/-- Integers and decimals are brought to numbers that may always be compared. -/
theorem brings_leveled (hleft : left.ty.isExact = true) (hright : right.ty.isExact = true) :
    Brings members left right (leveled left right) ∧
      ∀ op : Operator, op.isComparison = true →
        direct op (leveled left right).1 (leveled left right).2 =
          .ok (operator op (leveled left right).1 (leveled left right).2 .boolean) := by
  have hnumbers : Brings members left right (coerceNumeric true left right) :=
    brings_coerceNumeric hleft hright
  obtain ⟨haligned, htypes⟩ := brings_alignNullability hnumbers.meet
  exact ⟨hnumbers.trans haligned,
    fun op hop => direct_of_meet hop htypes haligned.meet.isExact.1⟩

/-- Among numbers there is no text to be brought to another type. -/
theorem coerceText_of_isExact (op : Operator) (hleft : left.ty.isExact = true)
    (hright : right.ty.isExact = true) : coerceText op left right = .ok (left, right) := by
  unfold coerceText
  rw [Ty.isString_of_isExact hleft, Ty.isString_of_isExact hright]
  rfl

/-- Among numbers there is nothing to be brought to an enumeration. -/
theorem coerceEnum_of_isExact (schema : Schema) (hleft : left.ty.isExact = true)
    (hright : right.ty.isExact = true) : coerceEnum schema left right = .ok (left, right) := by
  unfold coerceEnum
  rcases Ty.isExact_iff.mp hleft with ⟨a, ha⟩ | ha <;>
    rcases Ty.isExact_iff.mp hright with ⟨b, hb⟩ | hb <;>
    rw [ha, hb]

/-- Integers and decimals are no texts, members of enumerations or dynamic values: only their types
are brought together. -/
theorem reconcile_of_numbers (schema : Schema) {op : Operator} (hop : op.isLogical = false)
    (hleft : left.ty.isExact = true) (hright : right.ty.isExact = true) :
    reconcile schema op left right =
      direct op
        (alignNullability (coerceNumeric op.isComparison left right).1
          (coerceNumeric op.isComparison left right).2).1
        (alignNullability (coerceNumeric op.isComparison left right).1
          (coerceNumeric op.isComparison left right).2).2 := by
  have hplain : ∀ {ty : Ty}, ty.isExact = true → ty ≠ .any ∧ ty ≠ .null := by
    intro ty hty
    constructor
    · rintro rfl
      cases hty
    · rintro rfl
      cases hty
  obtain ⟨hanyLeft, hnullLeft⟩ := hplain hleft
  obtain ⟨hanyRight, hnullRight⟩ := hplain hright
  have hsniff : sniffDynamic left right = (left, right) := by
    unfold sniffDynamic
    rw [if_neg fun h => hanyLeft h.1, if_neg fun h => hanyRight h.2]
  unfold reconcile
  rw [hop, if_neg Bool.false_ne_true, hsniff]
  dsimp only
  rw [if_neg (not_or.mpr ⟨hanyLeft, hanyRight⟩),
    Ty.isString_of_isExact hleft, Bool.false_and,
    if_neg Bool.false_ne_true, if_neg (not_or.mpr ⟨hnullLeft, hnullRight⟩)]
  unfold reconcileStatic
  rw [coerceText_of_isExact op hleft hright]
  change (coerceEnum schema left right >>= _) = _
  rw [coerceEnum_of_isExact schema hleft hright]
  rfl

/-- To be compared, integers and decimals are brought to numbers that meet. -/
theorem reconcile_of_isExact (schema : Schema) {op : Operator} (hop : op.isComparison = true)
    (hleft : left.ty.isExact = true) (hright : right.ty.isExact = true) :
    reconcile schema op left right =
      direct op
        (alignNullability (coerceNumeric true left right).1 (coerceNumeric true left right).2).1
        (alignNullability (coerceNumeric true left right).1
          (coerceNumeric true left right).2).2 := by
  rw [reconcile_of_numbers schema (isLogical_of_isComparison hop) hleft hright, hop]

/-- An operator that is no logical connective runs both operands, the left one first. -/
theorem eval_operator_eq_bind {op : Operator} {services : Services} {environment : Environment}
    (hop : op.isLogical = false) :
    (operator op left right ty).eval services environment =
      left.eval services environment >>= fun a =>
        right.eval services environment >>= fun b => op.apply ty a b := by
  have hundecided : ∀ a, (BinaryOp.operator op).decided? a = .ok none := by
    cases op <;> first | exact fun _ => rfl | cases hop
  have happly : (BinaryOp.operator op).apply ty = op.apply ty := by
    cases op <;> first | rfl | cases hop
  conv_lhs => unfold operator eval
  simp only [hundecided, happly]
  rfl

/-- An arithmetic operator calculates with the values of its operands. -/
theorem eval_operator_of_isArithmetic {op : Operator} {services : Services}
    {environment : Environment} (hop : op.isArithmetic = true) :
    (operator op left right ty).eval services environment =
      left.eval services environment >>= fun a =>
        right.eval services environment >>= fun b => Value.arithmetic op a b ty := by
  have hlogical : op.isLogical = false := by cases op <;> first | rfl | cases hop
  have happly : op.apply ty = fun a b => Value.arithmetic op a b ty := by
    cases op <;> first | rfl | cases hop
  rw [eval_operator_eq_bind hlogical, happly]

/-- The value of a comparison. -/
theorem eval_operator {op : Operator} {a b : Value} {services : Services}
    {environment : Environment} (hop : op.isComparison = true)
    (hleft : left.eval services environment = .ok a)
    (hright : right.eval services environment = .ok b) :
    (operator op left right ty).eval services environment = op.apply ty a b := by
  rw [eval_operator_eq_bind (isLogical_of_isComparison hop), hleft, hright]
  rfl

/-- A comparison of operands that were brought to others is that of their numbers. -/
theorem Brings.compares {op : Operator} {brought : Plan × Plan} {services : Services}
    {environment : Environment} {a b : Value} (h : Brings members left right brought)
    (hop : op.isComparison = true) (hleft : left.eval services environment = .ok a)
    (ha : a.Conforms members left.ty) (hright : right.eval services environment = .ok b)
    (hb : b.Conforms members right.ty) :
    ∃ result, (operator op brought.1 brought.2 ty).eval services environment =
        .ok (.boolean result) ∧
      (result = true ↔ op.Compares a.number? b.number?) := by
  obtain ⟨hexactLeft, hexactRight⟩ := h.meet.isExact
  obtain ⟨x, hx, hconformsLeft, hsameLeft⟩ := h.left services environment a hleft ha
  obtain ⟨y, hy, hconformsRight, hsameRight⟩ := h.right services environment b hright hb
  have hnumberLeft := hconformsLeft.null_or_number? (Ty.holds_self hexactLeft)
  have hnumberRight := hconformsRight.null_or_number? (Ty.holds_self hexactRight)
  rw [eval_operator hop hx hy, ← hsameLeft, ← hsameRight]
  exact Operator.apply_iff_compares hop hnumberLeft hnumberRight

/-- Operands of integer and decimal types, nullable or not, may always be compared. Where they give
values of their types, the comparison does not fail, and it is that of the numbers: nothing but
`null` equals `null`, and `null` has no order. -/
theorem reconcile_compares (schema : Schema) (op : Operator) (left right : Plan)
    (hop : op.isComparison = true) (hleft : left.ty.isExact = true)
    (hright : right.ty.isExact = true) :
    ∃ plan, reconcile schema op left right = .ok plan ∧
      ∀ services environment a b,
        left.eval services environment = .ok a → a.Conforms schema.members left.ty →
        right.eval services environment = .ok b → b.Conforms schema.members right.ty →
        ∃ result, plan.eval services environment = .ok (.boolean result) ∧
          (result = true ↔ op.Compares a.number? b.number?) := by
  obtain ⟨hbrings, hdirect⟩ : Brings schema.members left right (leveled left right) ∧ _ :=
    brings_leveled hleft hright
  have haccepted := (reconcile_of_isExact schema hop hleft hright).trans (hdirect op hop)
  exact ⟨_, haccepted, fun services environment a b ha hconformsLeft hb hconformsRight =>
    hbrings.compares hop ha hconformsLeft hb hconformsRight⟩

/-- The largest unsigned integer of 64 bits. -/
def largest : UInt64 := 18446744073709551615

/-- A signed integer is less than the largest unsigned one, which no signed kind holds. -/
theorem reconcile_compares_largest :
    ∃ plan, reconcile .empty .less (.param (.int .i64) "a") (.param (.nullable (.int .u64)) "b") =
        .ok plan ∧
      ∃ result, plan.eval [] [("a", .int (-1)), ("b", .uint largest)] = .ok (.boolean result) ∧
        (result = true ↔
          Operator.less.Compares (Value.int (-1)).number? (Value.uint largest).number?) := by
  obtain ⟨plan, haccepted, hcompares⟩ := reconcile_compares .empty .less
    (.param (.int .i64) "a") (.param (.nullable (.int .u64)) "b") rfl rfl rfl
  exact ⟨plan, haccepted, hcompares [] [("a", .int (-1)), ("b", .uint largest)] _ _ rfl
    (.int rfl (by decide)) rfl (.uint rfl (by decide))⟩

end Plan

end TypedQuery
