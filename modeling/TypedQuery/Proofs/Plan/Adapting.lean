import TypedQuery.Proofs.Plan.Reconciling

/-!
# What reconciling does to operands

Reconciling leaves an operand as it is, replaces a constant by another one, which is a scalar of its
type, or converts it. In the end the operator stands on operands of these three sorts, or on truth
values, or on the order of two texts, and operands that are compared by order have types that can
be.
-/

namespace TypedQuery

/-- Values of two types can be compared by order, as far as their types tell. -/
def Ty.Compares (a b : Ty) : Prop :=
  a = .any ∨ b = .any ∨ a.intKind?.isSome = true ∧ b.intKind?.isSome = true ∨
    a = b ∧ a.isOrderable = true

namespace Plan

/-- What becomes of an operand: the operand itself, a constant in the place of a constant, or a
conversion of either. -/
inductive Adapts (plan : Plan) : Plan → Prop
  | refl : Adapts plan plan
  | const {ty : Ty} {value : Value} (hplan : plan.constant?.isSome = true)
      (h : ∀ members, value.isScalar = true ∧ value.Conforms members ty) :
      Adapts plan (.const ty value)
  | convert {other : Plan} (ty : Ty) (h : Adapts plan other) :
      Adapts plan (.unary ty .convert other)

variable {schema : Schema} {op : Operator} {plan other left right l r result : Plan} {ty : Ty}

/-- Only a constant is folded. -/
theorem isSome_constant?_of_folded? {value : Value} (h : plan.folded? ty = some value) :
    plan.constant?.isSome = true := by
  unfold folded? at h
  cases hconstant : plan.constant? with
  | none =>
    rw [hconstant] at h
    cases h
  | some constant => rfl

namespace Adapts

/-- Only a constant becomes a constant. -/
theorem isSome_constant? (h : Adapts plan other) (hother : other.constant?.isSome = true) :
    plan.constant?.isSome = true := by
  cases h with
  | refl => exact hother
  | const hplan _ => exact hplan
  | convert ty _ => cases hother

/-- What becomes of an operand in two steps becomes of it. -/
theorem trans (h : Adapts plan other) (hresult : Adapts other result) : Adapts plan result := by
  induction hresult with
  | refl => exact h
  | const hother hvalue => exact .const (h.isSome_constant? hother) hvalue
  | convert ty _ ih => exact .convert ty ih

/-- What becomes of an operand may be converted. -/
theorem converted (h : Adapts plan other) (ty : Ty) : Adapts plan (other.convert ty) := by
  unfold Plan.convert
  split
  · exact h
  · exact .convert ty h

/-- What becomes of an operand may be taken by its shape. -/
theorem sniffed (h : Adapts plan other) : Adapts plan other.sniff := by
  unfold Plan.sniff
  split
  · rename_i s hconstant
    split
    · exact .const (h.isSome_constant? (Option.isSome_of_eq_some hconstant))
        fun _ => sniffValue?_scalar ‹_›
    · exact h
  · exact h

/-- Bringing a text to a type adapts it. -/
theorem textTo {target : Ty} {refusal : CompileFault}
    (hok : plan.textTo target refusal = .ok result) : Adapts plan result := by
  unfold Plan.textTo at hok
  split at hok
  · rename_i s hconstant
    cases hread : readShaped? s target with
    | error fault =>
      rw [hread] at hok
      cases hok
    | ok value? =>
      rw [hread] at hok
      cases value? <;> cases hok
      exact .const (Option.isSome_of_eq_some hconstant) fun _ => readShaped?_scalar hread
  · rename_i hconstant
    cases hok
    exact .const (Option.isSome_of_eq_some hconstant) fun _ => ⟨rfl, .null⟩
  · cases hok
    exact Adapts.refl.converted target

/-- Bringing an operand to an enumeration adapts it. -/
theorem enumOperand {name : String} (hok : plan.enumOperand schema name = .ok result) :
    Adapts plan result := by
  unfold Plan.enumOperand at hok
  extract_lets declared ofInteger at hok
  have hmember : ∀ {constant value : Value}, plan.constant?.isSome = true →
      (declared.bind fun enum => enum.convert? constant) = some value →
      Adapts plan (.const (.enum name) value) := by
    intro constant value hconstant hbind
    obtain ⟨enum, henum, hconvert⟩ := Option.bind_eq_some_iff.mp hbind
    obtain ⟨member?, number, rfl⟩ := EnumType.eq_of_convert? hconvert
    rw [Schema.name_of_enum? henum]
    exact .const hconstant fun _ => ⟨rfl, .enum rfl⟩
  have hinteger : ∀ constant n, plan.constant? = some constant →
      ofInteger constant n = .ok result → Adapts plan result := by
    intro constant n hconstant hn
    have hsome := Option.isSome_of_eq_some hconstant
    unfold ofInteger at hn
    split at hn
    · cases hn
      exact hmember hsome ‹_›
    · split at hn <;> cases hn
      exact .const hsome fun _ => ⟨rfl, .enum rfl⟩
  split at hok
  · rename_i member hconstant
    split at hok <;> cases hok
    exact hmember (Option.isSome_of_eq_some hconstant) ‹_›
  · exact hinteger _ _ ‹_› hok
  · exact hinteger _ _ ‹_› hok
  · split at hok <;> cases hok
    · exact Adapts.refl.converted _
    · exact .refl

/-- Converting an operand adapts it. -/
theorem convertOperand (plan : Plan) (ty : Ty) : Adapts plan (plan.convertOperand ty) := by
  unfold Plan.convertOperand
  split
  · rename_i hfolded
    exact .const (isSome_constant?_of_folded? hfolded) fun _ => folded?_scalar hfolded
  · exact Adapts.refl.converted ty

/-- Widening an integer adapts it. -/
theorem widenTo (plan : Plan) (kind : IntKind) : Adapts plan (plan.widenTo kind) := by
  unfold Plan.widenTo
  split
  · exact .refl
  · exact convertOperand plan _

/-- Lifting a branch to a type adapts it. -/
theorem liftBranch (ty : Ty) (plan : Plan) : Adapts plan (plan.liftBranch ty) := by
  unfold Plan.liftBranch
  split
  · rename_i hconstant
    exact .const (Option.isSome_of_eq_some hconstant) fun _ => ⟨rfl, .null⟩
  · exact Adapts.refl.converted ty

end Adapts

/-- A pair whose right side is computed has the left side as it was. -/
theorem exists_of_right {right? : Except CompileFault Plan} {adapted : Plan × Plan}
    (hok : (do return (left, ← right?)) = (.ok adapted : Except CompileFault (Plan × Plan))) :
    ∃ r, right? = .ok r ∧ adapted = (left, r) := by
  cases right? with
  | error fault => cases hok
  | ok r =>
    cases hok
    exact ⟨r, rfl, rfl⟩

/-- A pair whose left side is computed has the right side as it was. -/
theorem exists_of_left {left? : Except CompileFault Plan} {adapted : Plan × Plan}
    (hok : (do return (← left?, right)) = (.ok adapted : Except CompileFault (Plan × Plan))) :
    ∃ l, left? = .ok l ∧ adapted = (l, right) := by
  cases left? with
  | error fault => cases hok
  | ok l =>
    cases hok
    exact ⟨l, rfl, rfl⟩

/-- What becomes of a pair of operands. -/
structure Adapt (left right : Plan) (adapted : Plan × Plan) : Prop where
  left : Adapts left adapted.1
  right : Adapts right adapted.2

namespace Adapt

/-- A pair may stay as it is. -/
theorem refl (left right : Plan) : Adapt left right (left, right) := ⟨.refl, .refl⟩

/-- What becomes of a pair in two steps becomes of it. -/
theorem trans {adapted last : Plan × Plan} (h : Adapt left right adapted)
    (hlast : Adapt adapted.1 adapted.2 last) : Adapt left right last :=
  ⟨h.left.trans hlast.left, h.right.trans hlast.right⟩

/-- Taking texts by their shape adapts both operands. -/
theorem sniffDynamic (left right : Plan) : Adapt left right (sniffDynamic left right) := by
  unfold Plan.sniffDynamic
  split
  · exact ⟨.refl, Adapts.refl.sniffed⟩
  · split
    · exact ⟨Adapts.refl.sniffed, .refl⟩
    · exact .refl left right

/-- A step that replaces the right operand where it does not fail. -/
theorem of_right {right? : Except CompileFault Plan} {adapted : Plan × Plan}
    (hright : ∀ r, right? = .ok r → Adapts right r)
    (hok : (do return (left, ← right?)) = (.ok adapted : Except CompileFault (Plan × Plan))) :
    Adapt left right adapted := by
  obtain ⟨r, hr, rfl⟩ := exists_of_right hok
  exact ⟨.refl, hright r hr⟩

/-- A step that replaces the left operand where it does not fail. -/
theorem of_left {left? : Except CompileFault Plan} {adapted : Plan × Plan}
    (hleft : ∀ l, left? = .ok l → Adapts left l)
    (hok : (do return (← left?, right)) = (.ok adapted : Except CompileFault (Plan × Plan))) :
    Adapt left right adapted := by
  obtain ⟨l, hl, rfl⟩ := exists_of_left hok
  exact ⟨hleft l hl, .refl⟩

/-- Bringing texts to the type of the other side adapts both operands. -/
theorem coerceText {adapted : Plan × Plan} (hok : coerceText op left right = .ok adapted) :
    Adapt left right adapted := by
  unfold Plan.coerceText at hok
  dsimp only at hok
  split at hok
  · exact of_right (fun _ h => .textTo h) hok
  · exact of_left (fun _ h => .textTo h) hok
  · cases hok
    exact .refl left right

/-- Bringing operands to enumerations adapts both. -/
theorem coerceEnum {adapted : Plan × Plan} (hok : coerceEnum schema left right = .ok adapted) :
    Adapt left right adapted := by
  unfold Plan.coerceEnum at hok
  split at hok
  · split at hok
    · cases hok
      exact .refl left right
    · exact of_right (fun _ h => .enumOperand h) hok
  · exact of_right (fun _ h => .enumOperand h) hok
  · exact of_left (fun _ h => .enumOperand h) hok
  · cases hok
    exact .refl left right

/-- Bringing integers to one kind adapts both. -/
theorem coerceKinds (widen : Bool) (a b : IntKind) (left right : Plan) :
    Adapt left right (coerceKinds widen a b left right) := by
  unfold Plan.coerceKinds
  split
  · exact .refl left right
  · split
    · split
      · exact ⟨.refl, .convertOperand right _⟩
      · split
        · exact ⟨.convertOperand left _, .refl⟩
        · split
          · exact ⟨.widenTo left _, .widenTo right _⟩
          · exact .refl left right
    · split
      · exact ⟨.refl, .convertOperand right _⟩
      · exact .refl left right

/-- Bringing numbers to one type adapts both. -/
theorem coerceNumeric (widen : Bool) (left right : Plan) :
    Adapt left right (coerceNumeric widen left right) := by
  unfold Plan.coerceNumeric
  split
  · exact .coerceKinds widen _ _ left right
  · exact ⟨.convertOperand left _, .refl⟩
  · exact ⟨.convertOperand left _, .refl⟩
  · exact ⟨.refl, .convertOperand right _⟩
  · exact ⟨.refl, .convertOperand right _⟩
  · exact ⟨.convertOperand left _, .refl⟩
  · exact ⟨.refl, .convertOperand right _⟩
  · exact .refl left right

/-- Making both operands nullable adapts them. -/
theorem alignNullability (left right : Plan) :
    Adapt left right (alignNullability left right) := by
  unfold Plan.alignNullability
  split
  · exact ⟨.refl, Adapts.refl.converted _⟩
  · split
    · exact ⟨Adapts.refl.converted _, .refl⟩
    · exact .refl left right

/-- The branches of a conditional are adapted like operands. -/
theorem unifyBranches (h : left.unifyBranches right = (l, r, ty)) :
    Adapt left right (l, r) := by
  unfold Plan.unifyBranches at h
  split at h
  · cases h
    exact .refl left right
  · split at h
    · cases h
      exact .refl left right
    · split at h
      · cases h
        exact ⟨.liftBranch _ left, .liftBranch _ right⟩
      · split at h
        · cases h
          exact ⟨.liftBranch _ left, .liftBranch _ right⟩
        · cases h
          exact (Adapt.coerceNumeric true left right).trans (.alignNullability _ _)

end Adapt

/-- The operands on which an operator stands when two plans have been reconciled. -/
inductive Operands (op : Operator) (left right : Plan) : Plan → Plan → Prop
  | conditions {l r : Plan} (hleft : left.asPredicate? = some l)
      (hright : right.asPredicate? = some r) : Operands op left right l r
  | texts {l r : Plan} (hadapt : Adapt left right (l, r)) (hop : op.isLogical = false)
      (hleft : l.ty.isString = true) (hright : r.ty.isString = true) :
      Operands op left right (compareText l r) (.const (.int .i32) (.int 0))
  | adapted {l r : Plan} (hadapt : Adapt left right (l, r)) (hop : op.isLogical = false)
      (hcompares : op.isRelational = true → l.ty.Compares r.ty) : Operands op left right l r

/-- Relations by order are not equalities. -/
theorem isEquality_of_isRelational (h : op.isRelational = true) : op.isEquality = false := by
  cases op <;> first | rfl | cases h

/-- Relations by order are not arithmetic. -/
theorem isArithmetic_of_isRelational (h : op.isRelational = true) : op.isArithmetic = false := by
  cases op <;> first | rfl | cases h

/-- A relation by order is accepted on types that compare. -/
theorem compares_of_direct (hrelational : op.isRelational = true)
    (hok : direct op left right = .ok result) : left.ty.Compares right.ty := by
  unfold direct at hok
  split at hok
  · rename_i hcond
    simp only [Bool.and_eq_true] at hcond
    exact .inr (.inr (.inl ⟨hcond.1.2, hcond.2⟩))
  · split at hok
    · cases hok
    · rename_i hty
      have hsame : left.ty = right.ty := by simpa using hty
      split at hok
      · rename_i hcond
        have horderable : left.ty.isOrderable = true := by
          simpa [isEquality_of_isRelational hrelational, hrelational] using hcond
        exact .inr (.inr (.inr ⟨hsame, horderable⟩))
      · split at hok
        · rename_i hcond
          simp only [Bool.and_eq_true] at hcond
          exact absurd hcond.1 (by simp [isArithmetic_of_isRelational hrelational])
        · cases hok

/-- The operator that is built directly stands on the operands. -/
theorem Operands.of_direct (hadapt : Adapt left right (l, r)) (hop : op.isLogical = false)
    (hok : direct op l r = .ok result) :
    ∃ l r ty, Operands op left right l r ∧ result = operator op l r ty := by
  obtain ⟨ty, hresult⟩ := direct_eq_operator hok
  exact ⟨l, r, ty, .adapted hadapt hop fun hrelational => compares_of_direct hrelational hok,
    hresult⟩

/-- Two texts are reconciled to an operator on the operands for texts. -/
theorem Operands.of_strings (hadapt : Adapt left right (l, r)) (hop : op.isLogical = false)
    (hleft : l.ty.isString = true) (hright : r.ty.isString = true)
    (hok : reconcileStrings op l r = .ok result) :
    ∃ l r ty, Operands op left right l r ∧ result = operator op l r ty := by
  unfold reconcileStrings at hok
  split at hok
  · rename_i hadd
    cases hok
    exact ⟨l, r, _, .adapted hadapt hop (by rw [hadd]; exact nofun), rfl⟩
  · split at hok
    · rename_i hequality
      cases hok
      refine ⟨l, r, _, .adapted hadapt hop fun hrelational => ?_, rfl⟩
      exact absurd hequality (by simp [isEquality_of_isRelational hrelational])
    · split at hok <;> cases hok
      exact ⟨_, _, _, .texts hadapt hop hleft hright, rfl⟩

/-- Operands whose types are known are reconciled to an operator on what becomes of them. -/
theorem Operands.of_static (hadapt : Adapt left right (l, r)) (hop : op.isLogical = false)
    (hok : reconcileStatic schema op l r = .ok result) :
    ∃ l r ty, Operands op left right l r ∧ result = operator op l r ty := by
  unfold reconcileStatic at hok
  cases htext : Plan.coerceText op l r with
  | error fault =>
    rw [htext] at hok
    cases hok
  | ok texts =>
    rw [htext] at hok
    change (Plan.coerceEnum schema texts.1 texts.2 >>= _) = _ at hok
    cases henum : Plan.coerceEnum schema texts.1 texts.2 with
    | error fault =>
      rw [henum] at hok
      cases hok
    | ok operands =>
      rw [henum] at hok
      exact of_direct ((((hadapt.trans (.coerceText htext)).trans (.coerceEnum henum)).trans
        (.coerceNumeric op.isComparison operands.1 operands.2)).trans (.alignNullability _ _))
        hop hok

/-- Reconciling two plans gives an operator on operands of the known sorts. -/
theorem reconcile_operands (hok : reconcile schema op left right = .ok result) :
    ∃ l r ty, Operands op left right l r ∧ result = operator op l r ty := by
  unfold reconcile at hok
  split at hok
  · unfold reconcileLogical at hok
    split at hok <;> cases hok
    exact ⟨_, _, _, .conditions ‹_› ‹_›, rfl⟩
  · rename_i hlogical
    have hop : op.isLogical = false := by simpa using hlogical
    have hadapt := Adapt.sniffDynamic left right
    generalize Plan.sniffDynamic left right = operands at hadapt hok
    obtain ⟨l, r⟩ := operands
    dsimp only at hok
    split at hok
    · rename_i hany
      cases hok
      refine ⟨l, r, _, .adapted hadapt hop fun _ => ?_, rfl⟩
      exact hany.imp_right .inl
    · split at hok
      · rename_i hstrings
        simp only [Bool.and_eq_true] at hstrings
        exact Operands.of_strings hadapt hop hstrings.1 hstrings.2 hok
      · split at hok
        · unfold reconcileNull at hok
          split at hok
          · rename_i hcond
            cases hok
            simp only [Bool.and_eq_true] at hcond
            refine ⟨l, r, _, .adapted hadapt hop fun hrelational => ?_, rfl⟩
            exact absurd hcond.1.1 (by simp [isEquality_of_isRelational hrelational])
          · cases hok
        · exact Operands.of_static hadapt hop hok

end Plan

end TypedQuery
