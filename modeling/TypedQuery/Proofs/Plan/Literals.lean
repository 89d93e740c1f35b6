import TypedQuery.Proofs.Plan.Calculating
import TypedQuery.Proofs.Plan.Unifying
import TypedQuery.Proofs.Value.Symmetry

/-!
# Operands opposite literals

A text, an integer or a dynamic operand may always be compared with a literal of its sort. What the
comparison tells is whether the value of the operand is the literal, but for a text opposite a
dynamic operand: one with the shape of an identifier or a timestamp stands for what it is written
for. Membership in a list of literals knows no shapes.
-/

namespace TypedQuery

/-- The value that is written out. -/
def Literal.value : Literal → Value
  | integer n => .int n
  | decimal d => .decimal d
  | text s => .text s
  | boolean b => .boolean b
  | null => .null

/-- The plan of a literal is the constant of its value. -/
theorem Literal.constant?_node (literal : Literal) :
    literal.node.plan.constant? = some literal.value := by
  cases literal with
  | integer n =>
    unfold node Node.ofPlan
    dsimp only
    split <;> rfl
  | _ => rfl

/-- What a literal stands for opposite an operand of a type: a text is taken by its shape if the
type is the dynamic one. -/
def Literal.opposite (literal : Literal) (ty : Ty) : Value :=
  match literal with
  | text s => if ty = .any then (Plan.sniffValue? s).getD (.text s) else .text s
  | other => other.value

/-- The literal is a text with the shape of an identifier or a timestamp. -/
def Literal.isShaped : Literal → Bool
  | text s => (Plan.sniffValue? s).isSome
  | _ => false

/-- Only a text with a shape stands for something else, and only opposite a dynamic operand. -/
theorem Literal.opposite_eq_value {literal : Literal} {ty : Ty}
    (h : ty = .any → literal.isShaped = false) : literal.opposite ty = literal.value := by
  cases literal with
  | text s =>
    unfold opposite
    dsimp only
    split
    · rename_i hty
      have hnone : Plan.sniffValue? s = none := by
        have hshape : (Plan.sniffValue? s).isSome = false := h hty
        exact Option.isNone_iff_eq_none.mp (Option.isSome_eq_false_iff.mp hshape)
      rw [hnone]
      rfl
    · rfl
  | _ => rfl

/-- What a literal becomes opposite a type is a scalar. -/
theorem Literal.isScalar_opposite (literal : Literal) (ty : Ty) :
    (literal.opposite ty).isScalar = true := by
  cases literal with
  | text s =>
    unfold opposite
    dsimp only
    split
    · cases hvalue : Plan.sniffValue? s with
      | none => rfl
      | some value =>
        have hscalar (members : Members) :
            value.isScalar = true ∧ value.Conforms members value.staticType :=
          Plan.sniffValue?_scalar hvalue
        exact (hscalar Schema.empty.members).1
    · rfl
  | _ => rfl

/-- An operand of a type and literals of its sort: texts opposite a text, integers opposite an
integer, and either of them opposite a dynamic operand. -/
inductive Ty.Meets (ty : Ty) (literals : List Literal) : Prop
  | texts (hty : ty.isString = true ∨ ty = .any)
      (h : ∀ literal ∈ literals, ∃ s, literal = .text s)
  | integers (hty : ty.intKind?.isSome = true ∨ ty = .any)
      (h : ∀ literal ∈ literals, ∃ n, literal = .integer n)

/-- A type that meets literals meets fewer of them. -/
theorem Ty.Meets.mono {ty : Ty} {literals fewer : List Literal} (h : ty.Meets literals)
    (hfewer : ∀ literal ∈ fewer, literal ∈ literals) : ty.Meets fewer := by
  cases h with
  | texts hty h => exact .texts hty fun literal hliteral => h literal (hfewer literal hliteral)
  | integers hty h =>
    exact .integers hty fun literal hliteral => h literal (hfewer literal hliteral)

/-- A result fails where an operand does, and of each admissible value of the operand it tells
whether a test holds. -/
structure Reports (admissible : Value → Prop) (test : Value → Bool)
    (operand result : Except RunFault Value) : Prop where
  fails : ∀ fault, operand = .error fault → result = .error fault
  tells : ∀ value, operand = .ok value → admissible value → result = .ok (.boolean (test value))

namespace Reports

variable {admissible : Value → Prop} {test other : Value → Bool}
  {operand first second : Except RunFault Value}

/-- Two results that report the same fail together, and otherwise tell the same. -/
theorem agree (h : Reports admissible test operand first)
    (hother : Reports admissible test operand second)
    (hadmissible : ∀ value, operand = .ok value → admissible value) :
    Value.Agree first second := by
  cases hoperand : operand with
  | error fault => exact .inr ⟨fault, fault, h.fails fault hoperand, hother.fails fault hoperand⟩
  | ok value =>
    have hvalue := hadmissible value hoperand
    exact .inl ⟨_, h.tells value hoperand hvalue, hother.tells value hoperand hvalue⟩

/-- Tests that are the same report the same. -/
theorem congr (h : Reports admissible test operand first) (htest : other = test) :
    Reports admissible other operand first :=
  htest ▸ h

end Reports

namespace Plan

variable {schema : Schema} {plan left right : Plan}
  {literal : Literal} {services : Services} {environment : Environment}
  {operand : Except RunFault Value} {admissible : Value → Prop} {test other : Value → Bool}

/-- Membership looks for the value of its operand in the set. -/
theorem reports_inSet (plan : Plan) (set : List Value) :
    Reports admissible (fun value => set.any (Value.same · value))
      (plan.eval services environment) ((plan.inSet set).eval services environment) where
  fails fault h := by
    unfold inSet eval
    rw [h]
    rfl
  tells value h _ := by
    unfold inSet eval
    rw [h]
    rfl

/-- A disjunction of two reports on one operand is decided by the first one, or by the second. -/
theorem reports_or (hleft : Reports admissible test operand (left.eval services environment))
    (hright : Reports admissible other operand (right.eval services environment)) :
    Reports admissible (fun value => test value || other value) operand
      ((operator .or left right .boolean).eval services environment) where
  fails fault h := by
    unfold operator eval
    rw [hleft.fails fault h]
    rfl
  tells value h hvalue := by
    unfold operator eval
    rw [hleft.tells value h hvalue, hright.tells value h hvalue]
    cases test value <;> rfl

/-- Constants that are no lists, objects or records are compared in either order. -/
theorem reports_equal {value : Value} (hright : right.constant? = some value)
    (hscalar : value.isScalar = true) :
    Reports admissible (fun found => Value.same value found) (left.eval services environment)
      ((operator .equal left right .boolean).eval services environment) where
  fails fault h := by
    rw [eval_operator_eq_bind rfl, h]
    rfl
  tells found h _ := by
    rw [eval_operator rfl h (eval_of_constant? hright)]
    unfold Operator.apply
    rw [Value.same_comm_of_isScalar (.inl hscalar)]
    simp [Operator.isEquality]

/-- An integer that was brought to one type with a literal is compared with it as a number. -/
theorem reconcile_integer (schema : Schema) (n : Int64) {kind : IntKind}
    (hplan : plan.ty.intKind? = some kind) :
    ∃ result, reconcile schema .equal plan (Literal.integer n).node.plan = .ok result ∧
      result.ty = .boolean ∧ ∀ services environment,
        Reports (fun value => value.Conforms schema.members plan.ty)
          (fun value => Value.same (.int n) value) (plan.eval services environment)
          (result.eval services environment) := by
  have hconstant := (Literal.integer n).constant?_node
  obtain ⟨other, hkind, hfits⟩ : ∃ other, (Literal.integer n).node.plan.ty = .int other ∧
      other.fits n.toInt = true := by
    unfold Literal.node Node.ofPlan
    dsimp only
    split
    · exact ⟨.i32, rfl, ‹_›⟩
    · exact ⟨.i64, rfl, IntKind.fits_toInt n⟩
  generalize (Literal.integer n).node.plan = constant at hconstant hkind ⊢
  have hleft := Ty.isExact_of_intKind? hplan
  have hright : constant.ty.isExact = true := by
    rw [hkind]
    rfl
  obtain ⟨hbrings, hdirect⟩ : Brings schema.members plan constant (leveled plan constant) ∧ _ :=
    brings_leveled hleft hright
  refine ⟨_, (reconcile_of_isExact schema rfl hleft hright).trans (hdirect .equal rfl), rfl,
    fun services environment => ⟨fun fault h => ?_, fun value h hvalue => ?_⟩⟩
  · have hadapts : Adapts plan (leveled plan constant).1 :=
      ((Adapt.coerceNumeric true plan constant).trans (.alignNullability _ _)).left
    rw [eval_operator_eq_bind rfl, hadapts.eval_error h]
    rfl
  · have hinteger : (Value.int n).Conforms schema.members constant.ty := hkind ▸ .int rfl hfits
    have hop : Operator.equal.isComparison = true := rfl
    obtain ⟨result, hresult, hiff⟩ :=
      hbrings.compares hop h hvalue (eval_of_constant? hconstant) hinteger
    have hsame : Value.same (.int n) value = true ↔ (Value.int n).number? = value.number? :=
      Operator.same_iff_number? (.inr ⟨_, rfl⟩) (hvalue.null_or_number? (Ty.holds_self hleft))
    rw [hresult]
    refine congrArg (Except.ok ∘ Value.boolean) (Bool.eq_iff_iff.mpr ?_)
    exact hiff.trans (eq_comm.trans hsame.symm)

/-- Two texts are compared as they are. -/
theorem reconcile_text (s : String) (hplan : plan.ty.isString = true) :
    reconcile schema .equal plan (Literal.text s).node.plan =
      .ok (operator .equal plan (Literal.text s).node.plan .boolean) := by
  have hany : plan.ty ≠ .any := by
    intro h
    rw [h] at hplan
    cases hplan
  have hsniff :
      sniffDynamic plan (Literal.text s).node.plan = (plan, (Literal.text s).node.plan) := by
    unfold sniffDynamic
    rw [if_neg fun h => hany h.1, if_neg fun h => nomatch h.2]
  unfold reconcile
  rw [hsniff]
  dsimp only
  rw [if_neg (by decide), if_neg fun h => h.elim hany nofun, hplan, if_pos (by rfl)]
  rfl

/-- A literal that is taken by its shape, where it has one. -/
theorem constant?_sniff (literal : Literal) :
    literal.node.plan.sniff.constant? = some (literal.opposite .any) := by
  unfold sniff
  rw [Literal.constant?_node]
  cases literal with
  | text s =>
    unfold Literal.opposite
    dsimp only [Literal.value]
    rw [if_pos rfl]
    cases sniffValue? s <;> rfl
  | _ => exact Literal.constant?_node _

/-- Opposite a dynamic operand, a literal is taken by its shape. -/
theorem reconcile_dynamic (literal : Literal) (hplan : plan.ty = .any) :
    reconcile schema .equal plan literal.node.plan =
      .ok (operator .equal plan literal.node.plan.sniff .boolean) := by
  have hsniff : sniffDynamic plan literal.node.plan = (plan, literal.node.plan.sniff) := by
    unfold sniffDynamic
    split
    · rfl
    · rename_i hother
      rw [if_neg (by rw [hplan]; exact nofun)]
      unfold sniff
      rw [Literal.constant?_node]
      cases literal with
      | text s => exact absurd ⟨hplan, rfl⟩ hother
      | _ => rfl
  unfold reconcile
  rw [hsniff]
  dsimp only
  rw [if_neg (by decide), if_pos (.inl hplan)]
  rfl

/-- An operand may be compared with a literal of its sort, and the comparison tells whether the
value of the operand is what the literal stands for. Only of an integer this takes that the value is
one of its type. -/
theorem reconcile_literal (schema : Schema) (h : plan.ty.Meets [literal]) :
    ∃ result, reconcile schema .equal plan literal.node.plan = .ok result ∧
      result.ty = .boolean ∧ ∀ services environment,
        Reports (fun value => plan.ty.intKind?.isSome = true →
            value.Conforms schema.members plan.ty)
          (fun value => Value.same (literal.opposite plan.ty) value)
          (plan.eval services environment) (result.eval services environment) := by
  by_cases hany : plan.ty = .any
  · refine ⟨_, reconcile_dynamic literal hany, rfl, fun services environment => ?_⟩
    rw [hany]
    exact reports_equal (constant?_sniff literal) (literal.isScalar_opposite .any)
  · cases h with
    | texts hty hsort =>
      obtain ⟨s, rfl⟩ := hsort literal (List.mem_singleton.mpr rfl)
      refine ⟨_, reconcile_text s (hty.resolve_right hany), rfl, fun services environment => ?_⟩
      rw [Literal.opposite_eq_value fun h => absurd h hany]
      exact reports_equal (Literal.constant?_node _) rfl
    | integers hty hsort =>
      obtain ⟨n, rfl⟩ := hsort literal (List.mem_singleton.mpr rfl)
      have hkind := hty.resolve_right hany
      obtain ⟨kind, hkind⟩ := Option.isSome_iff_exists.mp hkind
      obtain ⟨result, hresult, hboolean, hreports⟩ := reconcile_integer schema n hkind
      refine ⟨result, hresult, hboolean, fun services environment => ?_⟩
      obtain ⟨hfails, htells⟩ := hreports services environment
      exact ⟨hfails, fun value h hvalue => htells value h (hvalue (by rw [hkind]; rfl))⟩

end Plan

end TypedQuery
