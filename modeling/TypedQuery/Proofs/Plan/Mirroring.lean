import TypedQuery.Proofs.Plan.Relating
import TypedQuery.Proofs.Value.Symmetry

/-!
# Comparisons the other way round

A comparison is accepted where its mirror with the operands exchanged is, and the two come to the
same. Every step of reconciling treats the sides alike, but for two constant integers each of which
fits the kind of the other: there the right one takes the kind of the left, and only the comparison
of their numbers is the same.
-/

namespace TypedQuery

namespace Value

variable {value result : Value} {target : Ty}

/-- A conversion keeps a value or gives one without parts. -/
theorem Unambiguous.convertSome (h : value.Unambiguous)
    (hok : value.convertSome target = .ok result) : result.Unambiguous := by
  have hresult : Returns (value.convertSome target) fun result =>
      result = value ∨ result.Belongs (fun _ _ _ => False) target :=
    convertSome_kept_or_belongs value target
  rcases hresult result hok with rfl | hbelongs
  · exact h
  · rw [← convertSome_core] at hok
    cases hbelongs.1 with
    | null | boolean _ | int _ _ | uint _ _ | float _ | decimal _ | text _ | guid _ | dateTime _
    | enum _ => exact .scalar rfl
    | any hcore =>
      rw [hcore] at hok
      cases hok
      exact h
    | list hcore _ | object hcore _ | record hcore _ _ =>
      rw [hcore] at hok
      unfold Value.convertSome at hok
      split at hok <;> cases hok
      exact h

/-- A conversion makes no object with two members of one name. -/
theorem Unambiguous.convert (h : value.Unambiguous) (hok : value.convert target = .ok result) :
    result.Unambiguous := by
  unfold Value.convert at hok
  split at hok
  · cases hok
    exact .scalar rfl
  · exact h.convertSome hok

end Value

/-- The mirror compares two numbers the other way round. -/
theorem Operator.compares_mirror (op : Operator) (x y : Option ℚ) :
    op.mirror.Compares y x ↔ op.Compares x y := by
  have hexchange : ∀ related : ℚ → ℚ → Prop, (∃ a b, y = some a ∧ x = some b ∧ related b a) ↔
      ∃ a b, x = some a ∧ y = some b ∧ related a b := by
    intro related
    constructor
    · rintro ⟨a, b, ha, hb, hrelated⟩
      exact ⟨b, a, hb, ha, hrelated⟩
    · rintro ⟨a, b, ha, hb, hrelated⟩
      exact ⟨b, a, hb, ha, hrelated⟩
  cases op with
  | equal => exact eq_comm
  | notEqual => exact ne_comm
  | less => exact hexchange fun a b => a < b
  | lessEqual => exact hexchange fun a b => a ≤ b
  | greater => exact hexchange fun a b => a > b
  | greaterEqual => exact hexchange fun a b => a ≥ b
  | _ => exact Iff.rfl

namespace IntKind

/-- The kind that holds two kinds does not depend on their order. -/
theorem common?_comm (a b : IntKind) : common? a b = common? b a := by
  unfold common?
  simp only [Bool.and_comm]

end IntKind

namespace Plan

variable {schema : Schema} {members : Members} {op : Operator}
variable {plan other left right : Plan} {ty target : Ty}
variable {services : Services} {environment : Environment}

/-- A plan that is a constant holds a value of its type. -/
def Genuine (members : Members) (plan : Plan) : Prop :=
  ∀ value, plan.constant? = some value → value.Conforms members plan.ty

/-- A plan gives no object with two members of one name. -/
def Unambiguous (services : Services) (environment : Environment) (plan : Plan) : Prop :=
  ∀ value, plan.eval services environment = .ok value → value.Unambiguous

/-- What becomes of an operand is a genuine constant if the operand is one. -/
theorem Adapts.genuine (h : Adapts plan other) (hplan : plan.Genuine members) :
    other.Genuine members := by
  cases h with
  | refl => exact hplan
  | const _ hvalue =>
    rintro value ⟨⟩
    exact (hvalue members).2
  | convert ty _ => exact nofun

/-- What becomes of an operand gives no ambiguous object if the operand gives none. -/
theorem Adapts.unambiguous (h : Adapts plan other)
    (hplan : plan.Unambiguous services environment) :
    other.Unambiguous services environment := by
  induction h with
  | refl => exact hplan
  | const _ hvalue =>
    intro value heval
    cases heval
    exact .scalar (hvalue fun _ _ _ => False).1
  | @convert between ty _ ih =>
    intro value heval
    unfold eval at heval
    cases hbetween : between.eval services environment with
    | error fault =>
      rw [hbetween] at heval
      cases heval
    | ok operand =>
      rw [hbetween] at heval
      exact (ih operand hbetween).convert heval

/-- Texts opposite dynamic operands are taken by their shape on either side. -/
theorem sniffDynamic_swap (left right : Plan) :
    sniffDynamic right left = (sniffDynamic left right).swap := by
  unfold sniffDynamic
  by_cases hright : left.ty = .any ∧ right.ty = .string
  · rw [if_pos hright, if_neg (by rw [hright.1, hright.2]; decide), if_pos hright.symm]
    rfl
  · by_cases hleft : left.ty = .string ∧ right.ty = .any
    · rw [if_neg hright, if_pos hleft, if_pos hleft.symm]
      rfl
    · rw [if_neg hright, if_neg hleft, if_neg (mt And.symm hleft), if_neg (mt And.symm hright)]
      rfl

/-- An operator and its mirror bring texts to the same types. -/
theorem textTarget?_mirror (op : Operator) (ty : Ty) :
    textTarget? op.mirror ty = textTarget? op ty := by
  unfold textTarget?
  rw [Operator.isEquality_mirror, Operator.isComparison_mirror]

/-- Texts are not brought to a type opposite texts. -/
theorem textTarget?_of_isString (hty : ty.isString = true) : textTarget? op ty = none := by
  unfold Ty.isString at hty
  unfold textTarget?
  cases hunder : ty.underlying <;> simp_all

/-- The refusal matters only where a text is refused. -/
theorem textTo_of_ok {refusal : CompileFault} (refusal' : CompileFault)
    (hok : plan.textTo target refusal = .ok other) : plan.textTo target refusal' = .ok other := by
  unfold textTo at hok ⊢
  split at hok
  · cases hread : readShaped? _ target with
    | error fault =>
      rw [hread] at hok
      cases hok
    | ok value? =>
      rw [hread] at hok
      cases value? with
      | none => cases hok
      | some value => exact hok
  · exact hok
  · exact hok

/-- Exchanged operands are brought from texts to the same types, exchanged. -/
theorem coerceText_swap {adapted : Plan × Plan} (hok : coerceText op left right = .ok adapted) :
    coerceText op.mirror right left = .ok adapted.swap := by
  unfold coerceText at hok ⊢
  simp only [textTarget?_mirror]
  cases hright : right.ty.isString with
  | true =>
    have hnone : (if left.ty.isString then textTarget? op right.ty else none) = none := by
      split
      · exact textTarget?_of_isString hright
      · rfl
    rw [hright, if_pos rfl, hnone] at hok
    rw [if_pos rfl, hnone]
    cases htarget : textTarget? op left.ty with
    | none =>
      rw [htarget] at hok
      cases hok
      rfl
    | some target =>
      rw [htarget] at hok
      dsimp only at hok ⊢
      obtain ⟨r, htext, rfl⟩ := exists_of_right hok
      rw [textTo_of_ok _ htext]
      rfl
  | false =>
    rw [hright, if_neg Bool.false_ne_true] at hok
    rw [if_neg Bool.false_ne_true]
    cases htarget : (if left.ty.isString then textTarget? op right.ty else none) with
    | none =>
      rw [htarget] at hok
      cases hok
      rfl
    | some target =>
      rw [htarget] at hok
      dsimp only at hok ⊢
      obtain ⟨l, htext, rfl⟩ := exists_of_left hok
      rw [textTo_of_ok _ htext]
      rfl

/-- A constant of one enumeration is none of the values that become members of another. -/
theorem enumOperand_of_enum {name declared : String} (hplan : plan.Genuine members)
    (hty : plan.ty.underlying = .enum declared) : plan.enumOperand schema name = .ok plan := by
  have hkind : plan.ty.intKind? = none := by
    unfold Ty.intKind?
    simp only [hty]
  have hcore : plan.ty.core = .enum declared := by
    rw [← Ty.core_underlying, hty]
    rfl
  unfold enumOperand
  extract_lets declared? ofInteger
  split
  · rename_i hconstant
    cases hplan _ hconstant with
    | any h | text h => cases hcore.symm.trans h
  · rename_i hconstant
    cases hplan _ hconstant with
    | any h | int h _ => cases hcore.symm.trans h
  · rename_i hconstant
    cases hplan _ hconstant with
    | any h | uint h _ => cases hcore.symm.trans h
  · rw [hkind, if_neg (by simp)]

/-- With an enumeration on the left alone, the right operand is brought to it. -/
theorem coerceEnum_of_left {name : String} (hleft : left.ty.underlying = .enum name)
    (hright : ∀ name, right.ty.underlying ≠ .enum name) :
    coerceEnum schema left right = do return (left, ← right.enumOperand schema name) := by
  unfold coerceEnum
  split <;> simp_all

/-- With an enumeration on the right alone, the left operand is brought to it. -/
theorem coerceEnum_of_right {name : String} (hleft : ∀ name, left.ty.underlying ≠ .enum name)
    (hright : right.ty.underlying = .enum name) :
    coerceEnum schema left right = do return (← left.enumOperand schema name, right) := by
  unfold coerceEnum
  split <;> simp_all

/-- Without an enumeration both operands are left as they are. -/
theorem coerceEnum_of_neither (hleft : ∀ name, left.ty.underlying ≠ .enum name)
    (hright : ∀ name, right.ty.underlying ≠ .enum name) :
    coerceEnum schema left right = .ok (left, right) := by
  unfold coerceEnum
  split <;> simp_all

/-- With enumerations on both sides a genuine right operand is left as it is. -/
theorem coerceEnum_of_both {name other : String} (hgenuine : right.Genuine members)
    (hleft : left.ty.underlying = .enum name) (hright : right.ty.underlying = .enum other) :
    coerceEnum schema left right = .ok (left, right) := by
  unfold coerceEnum
  rw [hleft, hright]
  dsimp only
  split
  · rfl
  · rw [enumOperand_of_enum hgenuine hright]
    rfl

/-- Exchanged operands are brought to enumerations as the two are, exchanged. -/
theorem coerceEnum_swap {adapted : Plan × Plan} (hleft : left.Genuine members)
    (hright : right.Genuine members) (hok : coerceEnum schema left right = .ok adapted) :
    coerceEnum schema right left = .ok adapted.swap := by
  by_cases hl : ∃ name, left.ty.underlying = .enum name
  · obtain ⟨name, hl⟩ := hl
    by_cases hr : ∃ name, right.ty.underlying = .enum name
    · obtain ⟨other, hr⟩ := hr
      rw [coerceEnum_of_both hright hl hr] at hok
      cases hok
      exact coerceEnum_of_both hleft hr hl
    · rw [not_exists] at hr
      rw [coerceEnum_of_left hl hr] at hok
      obtain ⟨r, henum, rfl⟩ := exists_of_right hok
      rw [coerceEnum_of_right hr hl, henum]
      rfl
  · rw [not_exists] at hl
    by_cases hr : ∃ name, right.ty.underlying = .enum name
    · obtain ⟨name, hr⟩ := hr
      rw [coerceEnum_of_right hl hr] at hok
      obtain ⟨l, henum, rfl⟩ := exists_of_left hok
      rw [coerceEnum_of_left hr hl, henum]
      rfl
    · rw [not_exists] at hr
      rw [coerceEnum_of_neither hl hr] at hok
      cases hok
      exact coerceEnum_of_neither hr hl

/-- Both are constant integers, each in the range of the kind of the other. -/
def Interchange (left right : Plan) : Prop :=
  ∃ a b, left.ty.underlying = .int a ∧ right.ty.underlying = .int b ∧
    right.constantFits a = true ∧ left.constantFits b = true

/-- Exchanged integers are brought to the same kinds, unless each is a constant that fits the other.
-/
theorem coerceKinds_swap {a b : IntKind}
    (h : ¬(right.constantFits a = true ∧ left.constantFits b = true)) :
    coerceKinds true b a right left = (coerceKinds true a b left right).swap := by
  unfold coerceKinds
  rw [IntKind.common?_comm b a]
  by_cases hkinds : a = b
  · rw [if_pos hkinds, if_pos hkinds.symm]
    rfl
  · rw [if_neg hkinds, if_neg (Ne.symm hkinds), if_pos rfl, if_pos rfl]
    by_cases hright : right.constantFits a = true
    · rw [if_pos hright, if_neg fun hleft => h ⟨hright, hleft⟩, if_pos hright]
      rfl
    · rw [if_neg hright, if_neg hright]
      by_cases hleft : left.constantFits b = true
      · rw [if_pos hleft, if_pos hleft]
        rfl
      · rw [if_neg hleft, if_neg hleft]
        cases IntKind.common? a b <;> rfl

/-- Exchanged numbers are brought to the same types, unless each is a constant that fits the other.
-/
theorem coerceNumeric_swap (h : ¬Interchange left right) :
    coerceNumeric true right left = (coerceNumeric true left right).swap := by
  unfold coerceNumeric
  cases hl : left.ty.underlying <;> cases hr : right.ty.underlying <;>
    first
    | rfl
    | exact coerceKinds_swap fun hfits => h ⟨_, _, hl, hr, hfits⟩

/-- Exchanged operands are made nullable as the two are, exchanged. -/
theorem alignNullability_swap (left right : Plan) :
    alignNullability right left = (alignNullability left right).swap := by
  unfold alignNullability
  cases left.ty.isNullable with
  | true =>
    cases right.ty.isNullable with
    | true => rfl
    | false => by_cases hty : left.ty.underlying = right.ty <;> simp [hty]
  | false =>
    cases right.ty.isNullable with
    | true => by_cases hty : right.ty.underlying = left.ty <;> simp [hty]
    | false => rfl

/-- A comparison of two operands that is accepted is also accepted in its mirror. -/
theorem direct_mirror (hop : op.isComparison = true) (hok : direct op left right = .ok plan) :
    plan = operator op left right .boolean ∧
      direct op.mirror right left = .ok (operator op.mirror right left .boolean) := by
  have harithmetic : op.isArithmetic = false := by cases op <;> first | rfl | cases hop
  unfold direct at hok ⊢
  rw [Operator.isComparison_mirror, Operator.isEquality_mirror, Operator.isRelational_mirror]
  split at hok
  · rename_i hkinds
    cases hok
    rw [Bool.and_right_comm, if_pos hkinds]
    exact ⟨rfl, rfl⟩
  · rename_i hkinds
    rw [Bool.and_right_comm, if_neg hkinds]
    split at hok
    · cases hok
    · rename_i hty
      rw [if_neg fun hne => hty (Ne.symm hne), ← not_not.mp hty]
      split at hok
      · rename_i horder
        cases hok
        rw [if_pos horder]
        exact ⟨rfl, rfl⟩
      · rw [harithmetic, Bool.false_and, if_neg Bool.false_ne_true] at hok
        cases hok

/-- A comparison of unambiguous operands agrees with its mirror. -/
theorem agree_operator (hop : op.isComparison = true)
    (hleft : left.Unambiguous services environment)
    (hright : right.Unambiguous services environment) :
    Value.Agree ((operator op left right ty).eval services environment)
      ((operator op.mirror right left ty).eval services environment) := by
  have hmirror : op.mirror.isComparison = true := by rwa [Operator.isComparison_mirror]
  rw [eval_operator_eq_bind (isLogical_of_isComparison hop),
    eval_operator_eq_bind (isLogical_of_isComparison hmirror)]
  exact .bind fun a b ha hb => Value.agree_apply hop fun _ => (hleft a ha).same_comm (hright b hb)

/-- Texts are compared by a number, which is related to zero as their order is. -/
theorem agree_compareText (hop : op.isRelational = true) :
    Value.Agree
      ((operator op (compareText left right) (const (.int .i32) (.int 0)) .boolean).eval services
        environment)
      ((operator op.mirror (compareText right left) (const (.int .i32) (.int 0)) .boolean).eval
        services environment) := by
  have hcomparison := isComparison_of_isRelational hop
  have hmirror : op.mirror.isRelational = true := by rwa [Operator.isRelational_mirror]
  have hcomparisonMirror := isComparison_of_isRelational hmirror
  rw [eval_operator_eq_bind (isLogical_of_isComparison hcomparison),
    eval_operator_eq_bind (isLogical_of_isComparison hcomparisonMirror), eval_compareText,
    eval_compareText]
  simp only [bind_assoc]
  refine .bind fun a b _ _ => ?_
  have hturned := Value.compare_swap a b
  cases horder : Value.compare a b with
  | none =>
    rw [horder] at hturned
    refine .inr ⟨.type (.textOrder a.kind b.kind), .type (.textOrder b.kind a.kind), ?_, ?_⟩
    · unfold BinaryOp.apply
      rw [horder]
      rfl
    · unfold BinaryOp.apply
      rw [hturned]
      rfl
  | some order =>
    rw [horder] at hturned
    obtain ⟨sign, hsign, hholds⟩ := exists_sign (.int .i32) horder
    obtain ⟨sign', hsign', hholds'⟩ := exists_sign (.int .i32) hturned
    refine .inl ⟨op.holds order, ?_, ?_⟩
    · rw [hsign]
      exact hholds op hop
    · rw [hsign', ← Operator.holds_mirror hop]
      exact hholds' op.mirror hmirror

/-- A comparison and its mirror come to the same wherever the operands are run. -/
def Mirrors (left right result mirrored : Plan) : Prop :=
  ∀ services environment, left.Unambiguous services environment →
    right.Unambiguous services environment →
    Value.Agree (result.eval services environment) (mirrored.eval services environment)

/-- Mirrored comparisons of what becomes of two operands are mirrored comparisons of the operands.
-/
theorem Adapt.mirrors {adapted : Plan × Plan} {result mirrored : Plan}
    (h : Adapt left right adapted) (hmirrors : Mirrors adapted.1 adapted.2 result mirrored) :
    Mirrors left right result mirrored := fun services environment hleft hright =>
  hmirrors services environment (h.left.unambiguous hleft) (h.right.unambiguous hright)

/-- An operator and its mirror on exchanged operands come to the same. -/
theorem mirrors_operator (hop : op.isComparison = true) (left right : Plan) (ty : Ty) :
    Mirrors left right (operator op left right ty) (operator op.mirror right left ty) :=
  fun _ _ hleft hright => agree_operator hop hleft hright

/-- Exchanged operands are leveled as the two are, unless each is a constant that fits the other. -/
theorem leveled_swap (h : ¬Interchange left right) :
    leveled right left = (leveled left right).swap := by
  unfold leveled
  rw [coerceNumeric_swap h]
  exact alignNullability_swap _ _

/-- Leveling adapts both operands. -/
theorem adapt_leveled (left right : Plan) : Adapt left right (leveled left right) :=
  (Adapt.coerceNumeric true left right).trans (.alignNullability _ _)

/-- A plan that is a constant in some range is a constant. -/
theorem exists_constant?_of_constantFits {kind : IntKind} (h : plan.constantFits kind = true) :
    ∃ value, plan.constant? = some value := by
  unfold constantFits at h
  cases hconstant : plan.constant? with
  | some value => exact ⟨value, rfl⟩
  | none =>
    rw [hconstant] at h
    cases h

/-- Operands that were brought to one type are compared in both ways or in none. -/
theorem exists_mirrored_of_leveled {result : Plan} (hop : op.isComparison = true)
    (hleft : left.Genuine members) (hright : right.Genuine members)
    (hok : direct op (leveled left right).1 (leveled left right).2 = .ok result) :
    ∃ mirrored, direct op.mirror (leveled right left).1 (leveled right left).2 = .ok mirrored ∧
      Mirrors left right result mirrored := by
  by_cases h : Interchange left right
  · -- Here the right constant takes the kind of the left, whichever of the two that is.
    obtain ⟨a, b, hl, hr, hrightFits, hleftFits⟩ := h
    have hexactLeft : left.ty.isExact = true := Ty.isExact_iff.mpr (.inl ⟨a, hl⟩)
    have hexactRight : right.ty.isExact = true := Ty.isExact_iff.mpr (.inl ⟨b, hr⟩)
    obtain ⟨hbrings, hdirect⟩ : Brings members left right (leveled left right) ∧ _ :=
      brings_leveled hexactLeft hexactRight
    obtain ⟨hturned, hdirect'⟩ : Brings members right left (leveled right left) ∧ _ :=
      brings_leveled hexactRight hexactLeft
    have hmirror : op.mirror.isComparison = true := by rwa [Operator.isComparison_mirror]
    cases hok.symm.trans (hdirect op hop)
    refine ⟨_, hdirect' op.mirror hmirror, fun services environment _ _ => ?_⟩
    obtain ⟨x, hx⟩ := exists_constant?_of_constantFits hleftFits
    obtain ⟨y, hy⟩ := exists_constant?_of_constantFits hrightFits
    obtain ⟨holds, heval, hholds⟩ := hbrings.compares hop
      (eval_of_constant? hx) (hleft x hx) (eval_of_constant? hy) (hright y hy)
    obtain ⟨turned, hevalTurned, hturnedHolds⟩ := hturned.compares hmirror
      (eval_of_constant? hy) (hright y hy) (eval_of_constant? hx) (hleft x hx)
    have hsame : turned = holds := by
      rw [Bool.eq_iff_iff, hholds, hturnedHolds, Operator.compares_mirror]
    exact .inl ⟨holds, heval, hsame ▸ hevalTurned⟩
  · rw [leveled_swap h]
    obtain ⟨rfl, hmirrored⟩ := direct_mirror hop hok
    exact ⟨_, hmirrored, (adapt_leveled left right).mirrors (mirrors_operator hop _ _ _)⟩

/-- Where the types of both operands are known, an accepted comparison has a mirror that comes to
the same. -/
theorem exists_mirrored_of_static {result : Plan} (hop : op.isComparison = true)
    (hleft : left.Genuine members) (hright : right.Genuine members)
    (hok : reconcileStatic schema op left right = .ok result) :
    ∃ mirrored, reconcileStatic schema op.mirror right left = .ok mirrored ∧
      Mirrors left right result mirrored := by
  unfold reconcileStatic at hok ⊢
  rw [hop] at hok
  rw [Operator.isComparison_mirror, hop]
  cases htext : coerceText op left right with
  | error fault =>
    rw [htext] at hok
    cases hok
  | ok texts =>
    have htexts : Adapt left right texts := .coerceText htext
    rw [htext] at hok
    rw [coerceText_swap htext]
    change (coerceEnum schema texts.1 texts.2 >>= _) = _ at hok
    change ∃ mirrored, (coerceEnum schema texts.2 texts.1 >>= _) = _ ∧ _
    cases henum : coerceEnum schema texts.1 texts.2 with
    | error fault =>
      rw [henum] at hok
      cases hok
    | ok operands =>
      have hoperands : Adapt left right operands := htexts.trans (.coerceEnum henum)
      rw [henum] at hok
      rw [coerceEnum_swap (htexts.left.genuine hleft) (htexts.right.genuine hright) henum]
      obtain ⟨mirrored, hmirrored, hmirrors⟩ := exists_mirrored_of_leveled hop
        (hoperands.left.genuine hleft) (hoperands.right.genuine hright) hok
      exact ⟨mirrored, hmirrored, hoperands.mirrors hmirrors⟩

/-- On texts an accepted comparison has a mirror that comes to the same. -/
theorem exists_mirrored_of_strings {result : Plan} (hop : op.isComparison = true)
    (hok : reconcileStrings op left right = .ok result) :
    ∃ mirrored, reconcileStrings op.mirror right left = .ok mirrored ∧
      Mirrors left right result mirrored := by
  have hadd : ∀ {op : Operator}, op.isComparison = true → op ≠ .add := by
    rintro op hop rfl
    cases hop
  have hmirror : op.mirror.isComparison = true := by rwa [Operator.isComparison_mirror]
  unfold reconcileStrings at hok ⊢
  rw [if_neg (hadd hop)] at hok
  rw [if_neg (hadd hmirror), Operator.isEquality_mirror, Operator.isRelational_mirror]
  split at hok
  · rename_i hequality
    cases hok
    rw [if_pos hequality]
    exact ⟨_, rfl, mirrors_operator hop _ _ _⟩
  · rename_i hequality
    rw [if_neg hequality]
    split at hok
    · rename_i hrelational
      cases hok
      rw [if_pos hrelational]
      exact ⟨_, rfl, fun _ _ _ _ => agree_compareText hrelational⟩
    · cases hok

/-- An accepted comparison with `null` has a mirror that comes to the same. -/
theorem exists_mirrored_of_null {result : Plan} (hop : op.isComparison = true)
    (hok : reconcileNull op left right = .ok result) :
    ∃ mirrored, reconcileNull op.mirror right left = .ok mirrored ∧
      Mirrors left right result mirrored := by
  unfold reconcileNull at hok ⊢
  rw [Operator.isEquality_mirror, Bool.and_right_comm]
  split at hok
  · rename_i hnull
    cases hok
    rw [if_pos hnull]
    exact ⟨_, rfl, mirrors_operator hop _ _ _⟩
  · cases hok

/-- Where a comparison is accepted, its mirror with the operands exchanged is. -/
theorem exists_mirrored {result : Plan} (hop : op.isComparison = true)
    (hleft : left.Genuine members) (hright : right.Genuine members)
    (hok : reconcile schema op left right = .ok result) :
    ∃ mirrored, reconcile schema op.mirror right left = .ok mirrored ∧
      Mirrors left right result mirrored := by
  have hmirror : op.mirror.isComparison = true := by rwa [Operator.isComparison_mirror]
  have hadapt := Adapt.sniffDynamic left right
  unfold reconcile at hok ⊢
  rw [isLogical_of_isComparison hop, if_neg Bool.false_ne_true] at hok
  rw [isLogical_of_isComparison hmirror, if_neg Bool.false_ne_true, sniffDynamic_swap left right]
  generalize sniffDynamic left right = operands at hadapt hok
  obtain ⟨l, r⟩ := operands
  dsimp only [Prod.swap] at hok ⊢
  rw [Operator.isComparison_mirror]
  split at hok
  · rename_i hany
    cases hok
    rw [if_pos hany.symm, hop, if_pos rfl]
    exact ⟨_, rfl, hadapt.mirrors (mirrors_operator hop _ _ _)⟩
  · rename_i hany
    rw [if_neg (mt Or.symm hany), Bool.and_comm]
    split at hok
    · rename_i hstrings
      rw [if_pos hstrings]
      obtain ⟨mirrored, hmirrored, hmirrors⟩ := exists_mirrored_of_strings hop hok
      exact ⟨mirrored, hmirrored, hadapt.mirrors hmirrors⟩
    · rename_i hstrings
      rw [if_neg hstrings]
      split at hok
      · rename_i hnull
        rw [if_pos hnull.symm]
        obtain ⟨mirrored, hmirrored, hmirrors⟩ := exists_mirrored_of_null hop hok
        exact ⟨mirrored, hmirrored, hadapt.mirrors hmirrors⟩
      · rename_i hnull
        rw [if_neg (mt Or.symm hnull)]
        obtain ⟨mirrored, hmirrored, hmirrors⟩ := exists_mirrored_of_static hop
          (hadapt.left.genuine hleft) (hadapt.right.genuine hright) hok
        exact ⟨mirrored, hmirrored, hadapt.mirrors hmirrors⟩

/-- A comparison is accepted just when its mirror with the operands exchanged is, and wherever the
two are run, they give the same truth value or fail both. -/
theorem reconcile_mirrors (schema : Schema) (op : Operator) (left right : Plan)
    (hop : op.isComparison = true) (hleft : left.Genuine schema.members)
    (hright : right.Genuine schema.members) :
    ((∃ result, reconcile schema op left right = .ok result) ↔
      ∃ mirrored, reconcile schema op.mirror right left = .ok mirrored) ∧
    ∀ result mirrored, reconcile schema op left right = .ok result →
      reconcile schema op.mirror right left = .ok mirrored →
      ∀ services environment, left.Unambiguous services environment →
        right.Unambiguous services environment →
        Value.Agree (result.eval services environment) (mirrored.eval services environment) := by
  have hmirror : op.mirror.isComparison = true := by rwa [Operator.isComparison_mirror]
  refine ⟨⟨?_, ?_⟩, ?_⟩
  · rintro ⟨result, hresult⟩
    obtain ⟨mirrored, hmirrored, -⟩ := exists_mirrored hop hleft hright hresult
    exact ⟨mirrored, hmirrored⟩
  · rintro ⟨mirrored, hmirrored⟩
    obtain ⟨result, hresult, -⟩ := exists_mirrored hmirror hright hleft hmirrored
    rw [Operator.mirror_mirror] at hresult
    exact ⟨result, hresult⟩
  · intro result mirrored hresult hmirrored
    obtain ⟨other, hother, hmirrors⟩ := exists_mirrored hop hleft hright hresult
    cases hmirrored.symm.trans hother
    exact hmirrors

/-- Of two constants that fit the kinds of each other, the right one takes the kind of the left, so
that the mirror compares at another kind. -/
theorem reconcile_mirrors_constants :
    ∃ result mirrored,
      reconcile .empty .less (.const (.int .i32) (.int 5))
        (.const (.nullable (.int .u16)) (.int 7)) = .ok result ∧
      reconcile .empty .greater (.const (.nullable (.int .u16)) (.int 7))
        (.const (.int .i32) (.int 5)) = .ok mirrored ∧
      Value.Agree (result.eval [] []) (mirrored.eval [] []) := by
  have hleft : Genuine (Schema.members .empty) (.const (.int .i32) (.int 5)) := by
    rintro value ⟨⟩
    exact .int rfl (by decide)
  have hright : Genuine (Schema.members .empty) (.const (.nullable (.int .u16)) (.int 7)) := by
    rintro value ⟨⟩
    exact .int rfl (by decide)
  obtain ⟨haccepted, hagree⟩ := reconcile_mirrors .empty .less _ _ rfl hleft hright
  obtain ⟨result, hresult⟩ := haccepted.mpr ⟨_, rfl⟩
  obtain ⟨mirrored, hmirrored⟩ := haccepted.mp ⟨result, hresult⟩
  refine ⟨result, mirrored, hresult, hmirrored, hagree _ _ hresult hmirrored [] [] ?_ ?_⟩
  · rintro value ⟨⟩
    exact .scalar rfl
  · rintro value ⟨⟩
    exact .scalar rfl

end Plan

end TypedQuery
