import TypedQuery.Plan.Reconcile
import TypedQuery.Proofs.Plan.Typing

/-!
# Reconciled operands are well typed

Every step of reconciling operands, from the shape of a text to aligned nullability, keeps
plans well typed, and so do the branches of a conditional brought to one type. The type of an
operator is the one that its operands have in the end.
-/

namespace TypedQuery

/-- An enumeration is found under its own name. -/
theorem Schema.name_of_enum? {schema : Schema} {name : String} {enum : EnumType}
    (h : schema.enum? name = some enum) : enum.name = name :=
  schema.enumNames _ (Entries.mem_of_find? h)

/-- What converts to an enumeration is the value of a number in it. -/
theorem EnumType.exists_value_of_convert? {enum : EnumType} {value result : Value}
    (h : enum.convert? value = some result) : ∃ number, result = enum.value number := by
  have hnumber : ∀ n : Int,
      (if IntKind.fits .i64 n && (enum.nameOf? (Int64.ofInt n)).isSome then
        some (enum.value (Int64.ofInt n)) else none) = some result →
      ∃ number, result = enum.value number := by
    intro n hn
    split at hn
    · cases hn
      exact ⟨_, rfl⟩
    · cases hn
  unfold convert? at h
  dsimp only at h
  split at h
  · obtain ⟨number, _, rfl⟩ := Option.map_eq_some_iff.mp h
    exact ⟨_, rfl⟩
  · split at h
    · cases h
      exact ⟨_, rfl⟩
    · exact hnumber _ h
  · obtain ⟨n, _, hn⟩ := Option.bind_eq_some_iff.mp h
    exact hnumber n hn

/-- What converts to an enumeration is a value of it. -/
theorem EnumType.eq_of_convert? {enum : EnumType} {value result : Value}
    (h : enum.convert? value = some result) :
    ∃ member? number, result = .enum enum.name member? number := by
  obtain ⟨number, rfl⟩ := exists_value_of_convert? h
  exact ⟨_, _, rfl⟩

namespace Plan

variable {A : Assumptions} {services : List String} {Γ : Typing} {schema : Schema}
variable {op : Operator} {plan left right l r result : Plan}

/-- An operator of comparison or logic gives a Boolean whatever its operands are. -/
theorem Typed.boolean (hl : Typed A services Γ left) (hr : Typed A services Γ right)
    (hop : (op.isComparison || op.isLogical) = true) :
    Typed A services Γ (operator op left right .boolean) :=
  .binary hl hr (Or.inr (Or.inl ⟨hop, rfl⟩))

/-- Equalities are comparisons. -/
theorem isComparison_of_isEquality (h : op.isEquality = true) : op.isComparison = true := by
  simp [Operator.isComparison, h]

/-- Relations by order are comparisons. -/
theorem isComparison_of_isRelational (h : op.isRelational = true) : op.isComparison = true := by
  simp [Operator.isComparison, h]

/-- Comparisons are not connectives. -/
theorem isLogical_of_isComparison (h : op.isComparison = true) : op.isLogical = false := by
  cases op <;> first | rfl | cases h

/-- A condition of the plain type of truth values stays as it is, and others are compared with the
truth value. -/
theorem eq_of_asPredicate? (h : plan.asPredicate? = some result) :
    plan.ty = .boolean ∧ result = plan ∨
      plan.ty ≠ .boolean ∧ ∃ ty, ty.core = .boolean ∧
        result = operator .equal plan (const ty (.boolean true)) .boolean := by
  unfold Plan.asPredicate? at h
  split at h
  · cases h
    exact .inl ⟨‹_›, rfl⟩
  · rename_i hty
    cases h
    exact .inr ⟨by rw [hty]; decide, _, rfl, rfl⟩
  · rename_i hty
    cases h
    exact .inr ⟨by rw [hty]; decide, _, rfl, rfl⟩
  · cases h

/-- A condition is well typed as a Boolean. -/
theorem Typed.asPredicate? (h : Typed A services Γ plan)
    (hresult : plan.asPredicate? = some result) :
    Typed A services Γ result := by
  rcases eq_of_asPredicate? hresult with ⟨-, rfl⟩ | ⟨-, ty, hcore, rfl⟩
  · exact h
  · exact h.boolean (.const rfl (.boolean hcore)) rfl

/-- Connectives of typed operands are typed. -/
theorem typed_reconcileLogical (hl : Typed A services Γ left) (hr : Typed A services Γ right)
    (hop : op.isLogical = true) (hok : reconcileLogical op left right = .ok result) :
    Typed A services Γ result := by
  unfold reconcileLogical at hok
  split at hok
  · rename_i hleft hright
    cases hok
    exact (hl.asPredicate? hleft).boolean (hr.asPredicate? hright) (by simp [hop])
  · cases hok

/-- Operators on two typed texts are typed. -/
theorem typed_reconcileStrings (hl : Typed A services Γ left) (hr : Typed A services Γ right)
    (hleft : left.ty.isString = true) (hright : right.ty.isString = true)
    (hok : reconcileStrings op left right = .ok result) : Typed A services Γ result := by
  unfold reconcileStrings at hok
  split at hok
  · rename_i hadd
    cases hok
    exact .binary hl hr (Or.inr (Or.inr (Or.inr ⟨hadd, rfl, hleft, hright⟩)))
  · split at hok
    · rename_i heq
      cases hok
      exact hl.boolean hr (by simp [isComparison_of_isEquality heq])
    · split at hok
      · rename_i hrel
        cases hok
        exact Typed.boolean (.binary hl hr rfl) (.const rfl (.int rfl (by decide)))
          (by simp [isComparison_of_isRelational hrel])
      · cases hok

/-- Comparisons of typed operands with `null` are typed. -/
theorem typed_reconcileNull (hl : Typed A services Γ left) (hr : Typed A services Γ right)
    (hok : reconcileNull op left right = .ok result) : Typed A services Γ result := by
  unfold reconcileNull at hok
  split at hok
  · rename_i hcond
    cases hok
    have heq : op.isEquality = true := by
      simp only [Bool.and_eq_true] at hcond
      exact hcond.1.1
    exact hl.boolean hr (by simp [isComparison_of_isEquality heq])
  · cases hok

/-- A text that is taken by its shape is an identifier or a timestamp. -/
theorem sniffValue?_scalar {s : String} {value : Value} {members : Members}
    (h : sniffValue? s = some value) :
    value.isScalar = true ∧ value.Conforms members value.staticType := by
  unfold sniffValue? at h
  split at h
  · obtain ⟨g, _, rfl⟩ := Option.map_eq_some_iff.mp h
    exact ⟨rfl, .guid rfl⟩
  · split at h
    · obtain ⟨t, _, rfl⟩ := Option.map_eq_some_iff.mp h
      exact ⟨rfl, .dateTime rfl⟩
    · cases h

/-- A typed constant text that is taken by its shape is typed. -/
theorem Typed.sniff (h : Typed A services Γ plan) : Typed A services Γ plan.sniff := by
  unfold Plan.sniff
  split
  · split
    · rename_i value hsniff
      have hvalue : value.isScalar = true ∧ value.Conforms A.members value.staticType :=
        sniffValue?_scalar hsniff
      exact .ofValue hvalue.1 hvalue.2
    · exact h
  · exact h

/-- Typed operands of which one is dynamic are typed when texts are taken by their shape. -/
theorem typed_sniffDynamic (hl : Typed A services Γ left) (hr : Typed A services Γ right) :
    Typed A services Γ (sniffDynamic left right).1 ∧
      Typed A services Γ (sniffDynamic left right).2 := by
  unfold sniffDynamic
  split
  · exact ⟨hl, hr.sniff⟩
  · split
    · exact ⟨hl.sniff, hr⟩
    · exact ⟨hl, hr⟩

/-- A text that is read at a type gives a scalar of the type. -/
theorem readShaped?_scalar {s : String} {target : Ty} {value : Value} {members : Members}
    (h : readShaped? s target = .ok (some value)) :
    value.isScalar = true ∧ value.Conforms members target := by
  unfold readShaped? at h
  dsimp only at h
  split at h
  · split at h
    · split at h <;> cases h
      exact ⟨rfl, .guid rfl⟩
    · cases h
  · split at h
    · split at h <;> cases h
      exact ⟨rfl, .dateTime rfl⟩
    · cases h
  · cases h

/-- A typed text that is brought to a type is typed. -/
theorem typed_textTo {target : Ty} {refusal : CompileFault} (h : Typed A services Γ plan)
    (htarget : target.core.isChecked = true) (hok : plan.textTo target refusal = .ok result) :
    Typed A services Γ result := by
  unfold textTo at hok
  split at hok
  · cases hread : readShaped? _ target with
    | error fault =>
      rw [hread] at hok
      cases hok
    | ok value? =>
      rw [hread] at hok
      cases value? with
      | none => cases hok
      | some value =>
        cases hok
        have hvalue : value.isScalar = true ∧ value.Conforms A.members target :=
          readShaped?_scalar hread
        exact .const hvalue.1 hvalue.2
  · cases hok
    exact .const rfl .null
  · cases hok
    exact (h.convert (Or.inr (Or.inr (Or.inl htarget)))).1

/-- Texts are only brought to types whose values are checked. -/
theorem textTarget?_checked {ty target : Ty} (h : textTarget? op ty = some target) :
    target.core.isChecked = true := by
  unfold textTarget? at h
  split at h
  · split at h <;> cases h
    rfl
  · split at h <;> cases h
    rfl
  · cases h

/-- Typed operands are typed when texts are brought to the type of the other side. -/
theorem typed_coerceText (hl : Typed A services Γ left) (hr : Typed A services Γ right)
    (hok : coerceText op left right = .ok (l, r)) :
    Typed A services Γ l ∧ Typed A services Γ r := by
  unfold coerceText at hok
  dsimp only at hok
  split at hok
  · rename_i target htarget
    have hchecked : target.core.isChecked = true := by
      split at htarget
      · exact textTarget?_checked htarget
      · cases htarget
    cases htext : right.textTo target (mismatch op left right) with
    | error fault =>
      rw [htext] at hok
      cases hok
    | ok plan =>
      rw [htext] at hok
      cases hok
      exact ⟨hl, typed_textTo hr hchecked htext⟩
  · rename_i target _ htarget
    have hchecked : target.core.isChecked = true := by
      split at htarget
      · exact textTarget?_checked htarget
      · cases htarget
    cases htext : left.textTo target (mismatch op left right) with
    | error fault =>
      rw [htext] at hok
      cases hok
    | ok plan =>
      rw [htext] at hok
      cases hok
      exact ⟨typed_textTo hl hchecked htext, hr⟩
  · cases hok
    exact ⟨hl, hr⟩

/-- A value of an enumeration is well typed at the enumeration. -/
theorem Typed.ofEnum {name : String} {enum : EnumType}
    {value member : Value} (henum : schema.enum? name = some enum)
    (h : enum.convert? member = some value) : Typed A services Γ (.const (.enum name) value) := by
  obtain ⟨member?, number, rfl⟩ := EnumType.eq_of_convert? h
  rw [Schema.name_of_enum? henum]
  exact .const rfl (.enum rfl)

/-- A typed operand that is brought to an enumeration is typed. -/
theorem typed_enumOperand {name : String} (h : Typed A services Γ plan)
    (hok : plan.enumOperand schema name = .ok result) : Typed A services Γ result := by
  unfold enumOperand at hok
  extract_lets declared ofInteger at hok
  have hinteger : ∀ constant n, ofInteger constant n = .ok result → Typed A services Γ result := by
    intro constant n hn
    unfold ofInteger at hn
    split at hn
    · rename_i hbind
      obtain ⟨enum, henum, hconvert⟩ := Option.bind_eq_some_iff.mp hbind
      cases hn
      exact .ofEnum henum hconvert
    · split at hn <;> cases hn
      exact .const rfl (.enum rfl)
  split at hok
  · split at hok
    · rename_i hbind
      obtain ⟨enum, henum, hconvert⟩ := Option.bind_eq_some_iff.mp hbind
      cases hok
      exact .ofEnum henum hconvert
    · cases hok
  · exact hinteger _ _ hok
  · exact hinteger _ _ hok
  · split at hok <;> cases hok
    · refine (h.convert (Or.inr (Or.inr (Or.inr ⟨⟨name, ?_⟩, ‹_›⟩)))).1
      rw [Ty.core_nullableLike, Ty.core]
      rintro inner ⟨⟩
    · exact h

/-- Typed operands are typed when one is brought to the enumeration of the other. -/
theorem typed_coerceEnum (hl : Typed A services Γ left)
    (hr : Typed A services Γ right) (hok : coerceEnum schema left right = .ok (l, r)) :
    Typed A services Γ l ∧ Typed A services Γ r := by
  have hright : ∀ name, (do return (left, ← right.enumOperand schema name)) =
      (.ok (l, r) : Except CompileFault (Plan × Plan)) →
      Typed A services Γ l ∧ Typed A services Γ r := by
    intro name h
    cases henum : right.enumOperand schema name with
    | error fault =>
      rw [henum] at h
      cases h
    | ok plan =>
      rw [henum] at h
      cases h
      exact ⟨hl, typed_enumOperand hr henum⟩
  unfold coerceEnum at hok
  split at hok
  · split at hok
    · cases hok
      exact ⟨hl, hr⟩
    · exact hright _ hok
  · exact hright _ hok
  · rename_i name _ _
    cases henum : left.enumOperand schema name with
    | error fault =>
      rw [henum] at hok
      cases hok
    | ok plan =>
      rw [henum] at hok
      cases hok
      exact ⟨typed_enumOperand hl henum, hr⟩
  · cases hok
    exact ⟨hl, hr⟩

/-- What a constant becomes at a type is a scalar of the type. -/
theorem folded?_scalar {ty : Ty} {value : Value} {members : Members}
    (h : plan.folded? ty = some value) : value.isScalar = true ∧ value.Conforms members ty := by
  have hcore : ∀ other, ty.underlying = other → ty.core = other.core := by
    rintro other rfl
    exact (Ty.core_underlying ty).symm
  unfold folded? at h
  split at h
  · rename_i hty
    obtain ⟨n, _, hn⟩ := Option.bind_eq_some_iff.mp h
    have hvalue : value.Conforms members ty ∧ value.isScalar = true :=
      Value.conforms_of_ofInt? hn (hcore _ hty)
    exact ⟨hvalue.2, hvalue.1⟩
  · rename_i hty
    cases h
    exact ⟨rfl, .decimal (hcore _ hty)⟩
  · rename_i hty
    cases h
    exact ⟨rfl, .decimal (hcore _ hty)⟩
  · rename_i hty
    obtain ⟨x, _, rfl⟩ := Option.map_eq_some_iff.mp h
    exact ⟨rfl, .float (hcore _ hty)⟩
  · rename_i hty
    obtain ⟨x, _, rfl⟩ := Option.map_eq_some_iff.mp h
    exact ⟨rfl, .float (hcore _ hty)⟩
  · rename_i hty
    cases h
    exact ⟨rfl, .float (hcore _ hty)⟩
  · cases h

/-- A typed operand that is converted to a checked type is typed. -/
theorem Typed.convertOperand {ty : Ty} (h : Typed A services Γ plan)
    (hty : ty.core.isChecked = true) : Typed A services Γ (plan.convertOperand ty) := by
  unfold Plan.convertOperand
  split
  · rename_i value hfolded
    have hvalue : value.isScalar = true ∧ value.Conforms A.members ty := folded?_scalar hfolded
    exact .const hvalue.1 hvalue.2
  · exact (h.convert (Or.inr (Or.inr (Or.inl hty)))).1

/-- A typed operand that is converted to a checked type stays typed with `null` as before. -/
theorem Typed.convertLike {ty : Ty} (h : Typed A services Γ plan)
    (hty : ty.core.isChecked = true) : Typed A services Γ (plan.convertLike ty) :=
  h.convertOperand (by rwa [Ty.core_nullableLike])

/-- A typed integer at another kind is typed. -/
theorem Typed.widenTo {kind : IntKind} (h : Typed A services Γ plan) :
    Typed A services Γ (plan.widenTo kind) := by
  unfold Plan.widenTo
  split
  · exact h
  · exact h.convertLike rfl

/-- Typed integers that are brought to one kind are typed. -/
theorem typed_coerceKinds {widen : Bool} {a b : IntKind} (hl : Typed A services Γ left)
    (hr : Typed A services Γ right) :
    Typed A services Γ (coerceKinds widen a b left right).1 ∧
      Typed A services Γ (coerceKinds widen a b left right).2 := by
  unfold coerceKinds
  split
  · exact ⟨hl, hr⟩
  · split
    · split
      · exact ⟨hl, hr.convertLike rfl⟩
      · split
        · exact ⟨hl.convertLike rfl, hr⟩
        · split
          · exact ⟨hl.widenTo, hr.widenTo⟩
          · exact ⟨hl, hr⟩
    · split
      · exact ⟨hl, hr.convertLike rfl⟩
      · exact ⟨hl, hr⟩

/-- Typed numbers that are brought to one type are typed. -/
theorem typed_coerceNumeric (widen : Bool) (hl : Typed A services Γ left)
    (hr : Typed A services Γ right) :
    Typed A services Γ (coerceNumeric widen left right).1 ∧
      Typed A services Γ (coerceNumeric widen left right).2 := by
  unfold coerceNumeric
  split
  · exact typed_coerceKinds hl hr
  · exact ⟨hl.convertLike rfl, hr⟩
  · exact ⟨hl.convertLike rfl, hr⟩
  · exact ⟨hl, hr.convertLike rfl⟩
  · exact ⟨hl, hr.convertLike rfl⟩
  · exact ⟨hl.convertLike rfl, hr⟩
  · exact ⟨hl, hr.convertLike rfl⟩
  · exact ⟨hl, hr⟩

/-- Typed operands that are both made nullable are typed. -/
theorem typed_alignNullability (hl : Typed A services Γ left) (hr : Typed A services Γ right) :
    Typed A services Γ (alignNullability left right).1 ∧
      Typed A services Γ (alignNullability left right).2 := by
  -- The two types are the same but for one `nullable`.
  have hcore : ∀ a b : Ty, a.underlying = b → b.core = a.core := by
    rintro a b rfl
    exact Ty.core_underlying a
  unfold alignNullability
  split
  · rename_i hcond
    simp only [Bool.and_eq_true, decide_eq_true_eq] at hcond
    exact ⟨hl, (hr.convert (Or.inl (hcore _ _ hcond.2))).1⟩
  · split
    · rename_i hcond
      simp only [Bool.and_eq_true, decide_eq_true_eq] at hcond
      exact ⟨(hl.convert (Or.inl (hcore _ _ hcond.2))).1, hr⟩
    · exact ⟨hl, hr⟩

/-- An operator on typed operands of one type is typed. -/
theorem typed_direct (hl : Typed A services Γ left) (hr : Typed A services Γ right)
    (hok : direct op left right = .ok result) : Typed A services Γ result := by
  unfold direct at hok
  split at hok
  · rename_i hcond
    cases hok
    simp only [Bool.and_eq_true] at hcond
    exact hl.boolean hr (by simp [hcond.1.1])
  · split at hok
    · cases hok
    · rename_i hty
      split at hok
      · rename_i hcond
        cases hok
        refine hl.boolean hr ?_
        simp only [Bool.or_eq_true, Bool.and_eq_true] at hcond
        rcases hcond with h | h
        · simp [isComparison_of_isEquality h]
        · simp [isComparison_of_isRelational h.1]
      · split at hok
        · rename_i hcond
          cases hok
          simp only [Bool.and_eq_true] at hcond
          have hsame : left.ty = right.ty := by simpa using hty
          exact .binary hl hr (Or.inr (Or.inr (Or.inl ⟨hcond.1, hcond.2, rfl, hsame.symm⟩)))
        · cases hok

/-- An operator on typed operands whose types are known is typed. -/
theorem typed_reconcileStatic (hl : Typed A services Γ left)
    (hr : Typed A services Γ right) (hok : reconcileStatic schema op left right = .ok result) :
    Typed A services Γ result := by
  unfold reconcileStatic at hok
  cases htext : coerceText op left right with
  | error fault =>
    rw [htext] at hok
    cases hok
  | ok texts =>
    obtain ⟨l₁, r₁⟩ := texts
    obtain ⟨hl₁, hr₁⟩ := typed_coerceText hl hr htext
    rw [htext] at hok
    change (coerceEnum schema l₁ r₁ >>= _) = _ at hok
    cases henum : coerceEnum schema l₁ r₁ with
    | error fault =>
      rw [henum] at hok
      cases hok
    | ok operands =>
      obtain ⟨l₂, r₂⟩ := operands
      obtain ⟨hl₂, hr₂⟩ := typed_coerceEnum hl₁ hr₁ henum
      obtain ⟨hl₃, hr₃⟩ := typed_coerceNumeric op.isComparison hl₂ hr₂
      obtain ⟨hl₄, hr₄⟩ := typed_alignNullability hl₃ hr₃
      rw [henum] at hok
      exact typed_direct hl₄ hr₄ hok

/-- The plan of a binary operator on well-typed operands is well typed. -/
theorem typed_reconcile (hl : Typed A services Γ left)
    (hr : Typed A services Γ right) (hok : reconcile schema op left right = .ok result) :
    Typed A services Γ result := by
  unfold reconcile at hok
  split at hok
  · exact typed_reconcileLogical hl hr ‹_› hok
  · obtain ⟨hl₁, hr₁⟩ := typed_sniffDynamic hl hr
    dsimp only at hok
    split at hok
    · cases hok
      refine .binary hl₁ hr₁ ?_
      split
      · rename_i hop
        exact Or.inr (Or.inl ⟨by simp [hop], rfl⟩)
      · exact Or.inl rfl
    · split at hok
      · rename_i hstrings
        simp only [Bool.and_eq_true] at hstrings
        exact typed_reconcileStrings hl₁ hr₁ hstrings.1 hstrings.2 hok
      · split at hok
        · exact typed_reconcileNull hl₁ hr₁ hok
        · exact typed_reconcileStatic hl₁ hr₁ hok

/-- An operator that is built directly stands on the operands themselves. -/
theorem direct_eq_operator (hok : direct op left right = .ok result) :
    ∃ ty, result = operator op left right ty := by
  unfold direct at hok
  split at hok
  · cases hok
    exact ⟨_, rfl⟩
  · split at hok
    · cases hok
    · split at hok
      · cases hok
        exact ⟨_, rfl⟩
      · split at hok <;> cases hok
        exact ⟨_, rfl⟩

/-- Operands whose types are known are reconciled to an operator. -/
theorem reconcileStatic_eq_operator (hok : reconcileStatic schema op left right = .ok result) :
    ∃ l r ty, result = operator op l r ty := by
  unfold reconcileStatic at hok
  cases htext : coerceText op left right with
  | error fault =>
    rw [htext] at hok
    cases hok
  | ok texts =>
    rw [htext] at hok
    change (coerceEnum schema texts.1 texts.2 >>= _) = _ at hok
    cases henum : coerceEnum schema texts.1 texts.2 with
    | error fault =>
      rw [henum] at hok
      cases hok
    | ok operands =>
      rw [henum] at hok
      obtain ⟨ty, hresult⟩ := direct_eq_operator hok
      exact ⟨_, _, ty, hresult⟩

/-- The plan of a binary operator is an operator, perhaps on converted operands. -/
theorem reconcile_eq_operator (hok : reconcile schema op left right = .ok result) :
    ∃ l r ty, result = operator op l r ty := by
  unfold reconcile at hok
  split at hok
  · unfold reconcileLogical at hok
    split at hok <;> cases hok
    exact ⟨_, _, _, rfl⟩
  · dsimp only at hok
    split at hok
    · cases hok
      exact ⟨_, _, _, rfl⟩
    · split at hok
      · unfold reconcileStrings at hok
        split at hok
        · cases hok
          exact ⟨_, _, _, rfl⟩
        · split at hok
          · cases hok
            exact ⟨_, _, _, rfl⟩
          · split at hok <;> cases hok
            exact ⟨_, _, _, rfl⟩
      · split at hok
        · unfold reconcileNull at hok
          split at hok <;> cases hok
          exact ⟨_, _, _, rfl⟩
        · exact reconcileStatic_eq_operator hok

/-- A typed branch that is lifted to a type is typed and has that type. -/
theorem Typed.liftBranch (ty : Ty) (h : Typed A services Γ plan)
    (hconvert : plan.ty.ConvertsTo ty) :
    Typed A services Γ (plan.liftBranch ty) ∧ (plan.liftBranch ty).ty = ty := by
  unfold Plan.liftBranch
  split
  · exact ⟨.const rfl .null, rfl⟩
  · exact h.convert hconvert

/-- The branches of a conditional are well typed at the type to which they are brought, unless
the conditional is dynamic. -/
theorem typed_unifyBranches {ty : Ty} (hl : Typed A services Γ left)
    (hr : Typed A services Γ right) (h : unifyBranches left right = (l, r, ty)) :
    Typed A services Γ l ∧ Typed A services Γ r ∧ (ty = .any ∨ l.ty = ty ∧ r.ty = ty) := by
  unfold unifyBranches at h
  split at h
  · rename_i hsame
    cases h
    exact ⟨hl, hr, Or.inr ⟨rfl, hsame.symm⟩⟩
  · split at h
    · cases h
      exact ⟨hl, hr, Or.inl rfl⟩
    · split at h
      · rename_i hnull
        cases h
        obtain ⟨hl₁, hlty⟩ := hl.liftBranch right.ty.orNull (Or.inr (Or.inl hnull))
        obtain ⟨hr₁, hrty⟩ := hr.liftBranch right.ty.orNull
          (Or.inl (Ty.core_orNull right.ty).symm)
        exact ⟨hl₁, hr₁, Or.inr ⟨hlty, hrty⟩⟩
      · split at h
        · rename_i hnull
          cases h
          obtain ⟨hl₁, hlty⟩ := hl.liftBranch left.ty.orNull
            (Or.inl (Ty.core_orNull left.ty).symm)
          obtain ⟨hr₁, hrty⟩ := hr.liftBranch left.ty.orNull (Or.inr (Or.inl hnull))
          exact ⟨hl₁, hr₁, Or.inr ⟨hlty, hrty⟩⟩
        · obtain ⟨hl₁, hr₁⟩ := typed_coerceNumeric true hl hr
          obtain ⟨hl₂, hr₂⟩ := typed_alignNullability hl₁ hr₁
          have hagree : ∀ a b : Plan, (if a.ty = b.ty then a.ty else .any) = Ty.any ∨
              a.ty = (if a.ty = b.ty then a.ty else .any) ∧
                b.ty = (if a.ty = b.ty then a.ty else .any) := by
            intro a b
            by_cases hsame : a.ty = b.ty
            · rw [if_pos hsame]
              exact Or.inr ⟨rfl, hsame.symm⟩
            · rw [if_neg hsame]
              exact Or.inl rfl
          cases h
          exact ⟨hl₂, hr₂, hagree _ _⟩

end Plan

end TypedQuery
