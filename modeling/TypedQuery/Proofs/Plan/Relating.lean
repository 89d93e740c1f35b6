import TypedQuery.Proofs.Plan.Adapting
import TypedQuery.Proofs.Plan.Comparing
import TypedQuery.Proofs.Value.Kinds
import TypedQuery.Proofs.Value.Ordering

/-!
# Relating operands of one type

A relational operator on two operands of one type that has an order stands on the operands
themselves, apart from texts: these are compared to a number first, and it is the number that the
operator is applied to. Values that are not `null` are related by their order in both ways. With
`null` nothing is related, except that texts put `null` before everything else.
-/

namespace TypedQuery.Plan

variable {op : Operator} {left right : Plan} {services : Services} {environment : Environment}
  {a b : Value} {ty : Ty} {schema : Schema} {members : Members} {order : Ordering}

/-- Between operands of one type no text is taken by its shape. -/
theorem sniffDynamic_of_same (hty : left.ty = right.ty) :
    sniffDynamic left right = (left, right) := by
  unfold sniffDynamic
  rw [← hty]
  split
  · rename_i h
    cases h.1.symm.trans h.2
  · split
    · rename_i h
      cases h.1.symm.trans h.2
    · rfl

/-- Between operands of one type no text is brought to another. -/
theorem coerceText_of_same (hty : left.ty = right.ty) (hstring : left.ty.isString = false) :
    coerceText op left right = .ok (left, right) := by
  unfold coerceText
  rw [← hty, hstring]
  rfl

/-- Between operands of one type nothing is brought to an enumeration. -/
theorem coerceEnum_of_same (hty : left.ty = right.ty) :
    coerceEnum schema left right = .ok (left, right) := by
  unfold coerceEnum
  rw [← hty]
  cases left.ty.underlying <;> first | rfl | exact if_pos rfl

/-- Between operands of one type no number is converted. -/
theorem coerceNumeric_of_same (widen : Bool) (hty : left.ty = right.ty) :
    coerceNumeric widen left right = (left, right) := by
  unfold coerceNumeric
  rw [← hty]
  cases left.ty.underlying <;> first | rfl | exact if_pos rfl

/-- Operands of one type are both nullable or neither is. -/
theorem alignNullability_of_same (hty : left.ty = right.ty) :
    alignNullability left right = (left, right) := by
  unfold alignNullability
  rw [← hty]
  cases left.ty.isNullable <;> rfl

/-- Operands of one orderable type may be compared by order. -/
theorem direct_of_same (hop : op.isRelational = true) (hty : left.ty = right.ty)
    (horderable : left.ty.isOrderable = true) :
    direct op left right = .ok (operator op left right .boolean) := by
  unfold direct
  split
  · rfl
  · rw [if_neg (not_not.mpr hty), hop, horderable, if_pos (by simp)]

/-- Operands of one type that are no texts stay as they are. -/
theorem reconcileStatic_of_same (schema : Schema) (op : Operator) (hty : left.ty = right.ty)
    (hstring : left.ty.isString = false) :
    reconcileStatic schema op left right = direct op left right := by
  have hdirect : direct op
      (alignNullability (coerceNumeric op.isComparison left right).1
        (coerceNumeric op.isComparison left right).2).1
      (alignNullability (coerceNumeric op.isComparison left right).1
        (coerceNumeric op.isComparison left right).2).2 = direct op left right := by
    rw [coerceNumeric_of_same _ hty, alignNullability_of_same hty]
  unfold reconcileStatic
  rw [coerceText_of_same hty hstring]
  change (coerceEnum schema left right >>= _) = _
  rw [coerceEnum_of_same hty]
  exact hdirect

/-- Operands of one type are related as they are, and texts by the number of their comparison. -/
theorem reconcile_of_same (schema : Schema) (hop : op.isRelational = true)
    (hty : left.ty = right.ty) (horderable : left.ty.isOrderable = true) :
    reconcile schema op left right = .ok
      (if left.ty.isString then
        operator op (compareText left right) (const (.int .i32) (.int 0)) .boolean
      else operator op left right .boolean) := by
  unfold reconcile
  rw [isLogical_of_isComparison (isComparison_of_isRelational hop), if_neg Bool.false_ne_true,
    sniffDynamic_of_same hty]
  simp only [← hty, or_self, Bool.and_self]
  split
  · rename_i hany
    rw [hany, isComparison_of_isRelational hop]
    rfl
  · split
    · rename_i hstring
      unfold reconcileStrings
      rw [isEquality_of_isRelational hop, hop]
      split
      · rename_i hadd
        cases hadd
        cases hop
      · rfl
    · rename_i hstring
      split
      · rename_i hnull
        rw [hnull] at horderable
        cases horderable
      · rw [reconcileStatic_of_same schema op hty (Bool.eq_false_iff.mpr hstring)]
        exact direct_of_same hop hty horderable

/-- Arithmetic on numbers of one type stands on the operands as they are. -/
theorem reconcile_of_numeric (schema : Schema) (hop : op.isArithmetic = true)
    (hty : left.ty = right.ty) (hnumeric : left.ty.isNumeric = true) :
    reconcile schema op left right = .ok (operator op left right left.ty) := by
  have hnone : op.isLogical = false ∧ op.isComparison = false := by
    cases op <;> first | exact ⟨rfl, rfl⟩ | cases hop
  have hstring : left.ty.isString = false := by
    unfold Ty.isNumeric at hnumeric
    unfold Ty.isString
    cases hunder : left.ty.underlying <;> simp_all
  have hplain : left.ty ≠ .any ∧ left.ty ≠ .null := by
    constructor
    · intro hany
      rw [hany] at hnumeric
      cases hnumeric
    · intro hnull
      rw [hnull] at hnumeric
      cases hnumeric
  have hdirect : direct op left right = .ok (operator op left right left.ty) := by
    have hcomparison := hnone.2
    unfold Operator.isComparison at hcomparison
    obtain ⟨hequality, hrelational⟩ := Bool.or_eq_false_iff.mp hcomparison
    unfold direct
    rw [hnone.2, if_neg (by simp), if_neg (not_not.mpr hty), hequality, hrelational,
      if_neg (by simp), hop, hnumeric]
    rfl
  unfold reconcile
  rw [hnone.1, if_neg Bool.false_ne_true, sniffDynamic_of_same hty]
  simp only [← hty, or_self, Bool.and_self]
  rw [if_neg hplain.1, hstring, if_neg Bool.false_ne_true, if_neg hplain.2,
    reconcileStatic_of_same schema op hty hstring, hdirect]

/-- The order of two texts becomes a number that is related to zero as the texts are. -/
theorem exists_sign (ty : Ty) (h : Value.compare a b = some order) :
    ∃ sign, BinaryOp.compareText.apply ty a b = .ok sign ∧
      ∀ op : Operator, op.isRelational = true →
        op.apply .boolean sign (.int 0) = .ok (.boolean (op.holds order)) := by
  unfold BinaryOp.apply
  rw [h]
  cases order with
  | lt => exact ⟨.int (-1), rfl, fun op hop => by cases op <;> first | rfl | cases hop⟩
  | eq => exact ⟨.int 0, rfl, fun op hop => by cases op <;> first | rfl | cases hop⟩
  | gt => exact ⟨.int 1, rfl, fun op hop => by cases op <;> first | rfl | cases hop⟩

/-- The order of two texts is asked for when both have been run, the left one first. -/
theorem eval_compareText (left right : Plan) (services : Services) (environment : Environment) :
    (compareText left right).eval services environment =
      left.eval services environment >>= fun a =>
        right.eval services environment >>= fun b =>
          BinaryOp.compareText.apply (.int .i32) a b := by
  conv_lhs => unfold compareText eval
  rfl

/-- Texts are related as their order is, `null` being the least of them. -/
theorem eval_relatedTexts (hop : op.isRelational = true)
    (hleft : left.eval services environment = .ok a)
    (hright : right.eval services environment = .ok b) (h : Value.compare a b = some order) :
    (operator op (compareText left right) (const (.int .i32) (.int 0)) .boolean).eval services
      environment = .ok (.boolean (op.holds order)) := by
  obtain ⟨sign, hsign, hholds⟩ := exists_sign (.int .i32) h
  have hnumber : (compareText left right).eval services environment = .ok sign := by
    rw [eval_compareText, hleft, hright]
    exact hsign
  exact (eval_operator (isComparison_of_isRelational hop) hnumber rfl).trans (hholds op hop)

/-- Apart from texts, nothing is related to `null`. -/
theorem apply_of_null (hop : op.isRelational = true) (h : a = .null ∨ b = .null) :
    op.apply ty a b = .ok (.boolean false) := by
  have hnull : (a.isNull || b.isNull) = true := by
    rcases h with rfl | rfl
    · rfl
    · exact Bool.or_true _
  unfold Operator.apply
  rw [isEquality_of_isRelational hop, hop, hnull]
  rfl

/-- Values that are not `null` are related by their order, if they have one. -/
theorem apply_of_some (hop : op.isRelational = true) (ha : a ≠ .null) (hb : b ≠ .null) :
    op.apply ty a b =
      match Value.compare a b with
      | some order => .ok (.boolean (op.holds order))
      | none => .error (.type (.incomparable op a.kind b.kind)) := by
  have hsome : (a.isNull || b.isNull) = false := by
    cases a <;> first | exact absurd rfl ha | cases b <;> first | exact absurd rfl hb | rfl
  unfold Operator.apply
  rw [isEquality_of_isRelational hop, hop, hsome]
  rfl

/-- The value `null` has an order with every value. -/
theorem exists_compare_of_null (h : a = .null ∨ b = .null) :
    ∃ order, Value.compare a b = some order := by
  by_cases ha : a = .null
  · subst ha
    by_cases hb : b = .null
    · subst hb
      exact ⟨.eq, rfl⟩
    · exact ⟨.lt, (Value.compare_null hb).1⟩
  · obtain rfl := h.resolve_left ha
    exact ⟨.gt, (Value.compare_null ha).2⟩

/-- Values of one type have an order if that is a definite one. -/
theorem not_definite_of_compare (horderable : ty.isOrderable = true) (ha : a.Conforms members ty)
    (hb : b.Conforms members ty) (hsome : a ≠ .null) (hsome' : b ≠ .null)
    (h : Value.compare a b = none) : ¬ ty.Definite := by
  intro hdefinite
  obtain ⟨order, horder⟩ := Value.Agrees.exists_compare (.inr (.inr (.inr ⟨rfl, horderable⟩)))
    hdefinite hdefinite ha.agrees hb.agrees hsome hsome'
  rw [h] at horder
  cases horder

/-- Operands of one type that has an order may always be related. Values that are not `null` are
related by their order; the comparison fails if they have none, and then the type is dynamic or that
of floats. With `null` on either side nothing is related, except that for texts `null` is less than
every text and equal to itself. -/
theorem reconcile_relates (schema : Schema) (op : Operator) (left right : Plan)
    (hop : op.isRelational = true) (hty : left.ty = right.ty)
    (horderable : left.ty.isOrderable = true) :
    ∃ plan, reconcile schema op left right = .ok plan ∧
      ∀ services environment a b,
        left.eval services environment = .ok a → a.Conforms schema.members left.ty →
        right.eval services environment = .ok b → b.Conforms schema.members right.ty →
        (a ≠ .null → b ≠ .null →
          (∀ order, Value.compare a b = some order →
            plan.eval services environment = .ok (.boolean (op.holds order))) ∧
          (Value.compare a b = none → ¬ left.ty.Definite ∧
            plan.eval services environment =
              .error (.type (.incomparable op a.kind b.kind)))) ∧
        (a = .null ∨ b = .null →
          ∃ order, Value.compare a b = some order ∧
            plan.eval services environment =
              .ok (.boolean (left.ty.isString && op.holds order))) := by
  refine ⟨_, reconcile_of_same schema hop hty horderable, fun services environment a b ha hconforms
    hb hconforms' => ?_⟩
  rw [← hty] at hconforms'
  have hnone := not_definite_of_compare horderable hconforms hconforms'
  by_cases hstring : left.ty.isString = true
  · rw [if_pos hstring, hstring]
    refine ⟨fun hsome hsome' => ⟨fun order horder => eval_relatedTexts hop ha hb horder,
      fun h => ?_⟩, fun hnull => ?_⟩
    · have hcore := Ty.core_of_isString hstring
      exact absurd ⟨by rw [hcore]; nofun, by rw [hcore]; nofun⟩ (hnone hsome hsome' h)
    · obtain ⟨order, horder⟩ := exists_compare_of_null hnull
      exact ⟨order, horder, eval_relatedTexts hop ha hb horder⟩
  · rw [if_neg hstring, Bool.eq_false_iff.mpr hstring,
      eval_operator (isComparison_of_isRelational hop) ha hb]
    refine ⟨fun hsome hsome' => ?_, fun hnull => ?_⟩
    · rw [apply_of_some hop hsome hsome']
      refine ⟨fun order horder => by rw [horder], fun h => ⟨hnone hsome hsome' h, by rw [h]⟩⟩
    · obtain ⟨order, horder⟩ := exists_compare_of_null hnull
      exact ⟨order, horder, apply_of_null hop hnull⟩

/-- A text is related to `null`, as no other value is. -/
theorem reconcile_relates_texts :
    ∃ plan, reconcile .empty .less (.param .string "a") (.param .string "b") = .ok plan ∧
      plan.eval [] [("a", .null), ("b", .text "")] = .ok (.boolean true) := by
  obtain ⟨plan, haccepted, hrelates⟩ := reconcile_relates .empty .less
    (.param .string "a") (.param .string "b") rfl rfl rfl
  obtain ⟨order, horder, heval⟩ := (hrelates [] [("a", .null), ("b", .text "")] _ _ rfl .null rfl
    (.text rfl)).2 (.inl rfl)
  cases horder
  exact ⟨plan, haccepted, heval⟩

end TypedQuery.Plan
