import TypedQuery.Proofs.Plan.Adapting
import TypedQuery.Proofs.Plan.Comparing

/-!
# Bringing branches to one type

The branches of a conditional are brought to one type where that is possible. A branch becomes
nullable where the other one is or is `null`, integers take a kind that holds both, and they become
decimals opposite decimals. Of values that are no floats, all this keeps the meaning, so it fails
where the branch does and nowhere else.
-/

namespace TypedQuery

namespace Value

variable {members : Members} {value result last : Value} {source target : Ty}

/-- The values are the same, or integers or decimals that stand for the same number. -/
def Means (value other : Value) : Prop :=
  value = other ∨ ∃ x, value.number? = some x ∧ other.number? = some x

/-- A value means itself. -/
theorem Means.refl (value : Value) : value.Means value :=
  .inl rfl

/-- Values of types of integers and decimals mean the same if they have the same number. -/
theorem Conforms.means_of_number? (h : result.Conforms members target)
    (htarget : target.isExact = true) (hvalue : value.Conforms members source)
    (hsource : source.isExact = true) (hnumber : result.number? = value.number?) :
    result.Means value := by
  rcases hvalue.null_or_number? (Ty.holds_self hsource) with rfl | ⟨x, hx⟩
  · rcases h.null_or_number? (Ty.holds_self htarget) with rfl | ⟨y, hy⟩
    · exact .refl _
    · cases hy.symm.trans hnumber
  · exact .inr ⟨x, hnumber.trans hx, hx⟩

/-- Conversion to a type that is the same but for `nullable` keeps the meaning of a value. -/
theorem Conforms.convert_means (h : value.Conforms members source)
    (hcore : target.core = source.core) :
    ∃ result, value.convert target = .ok result ∧ result.Means value := by
  by_cases hnull : value = .null
  · rw [hnull]
    exact ⟨_, rfl, .refl _⟩
  have hsome : value.convert target = value.convertSome source.core := by
    rw [← hcore, convertSome_core]
    cases value with
    | null => exact absurd rfl hnull
    | _ => rfl
  have hnumber : target.Holds source → ∃ result, value.convert target = .ok result ∧
      result.Means value := by
    intro hholds
    obtain ⟨result, hresult, -, hsame⟩ := h.convert_number? hholds
    obtain ⟨x, hx⟩ := (h.null_or_number? (hholds.of_core_eq hcore.symm)).resolve_left hnull
    exact ⟨result, hresult, .inr ⟨x, hsame.trans hx, hx⟩⟩
  have hcontains : ∀ kind : IntKind, kind.contains kind = true := fun kind => by
    cases kind <;> rfl
  cases h with
  | null => exact absurd rfl hnull
  | int hinner _ | uint hinner _ =>
    exact hnumber (.integers (hcore.trans hinner) hinner (hcontains _))
  | decimal hinner => exact hnumber (.decimals (hcore.trans hinner) hinner)
  | any hinner =>
    rw [hsome, hinner]
    exact ⟨_, rfl, .refl _⟩
  | boolean hinner | float hinner | text hinner | guid hinner | dateTime hinner | enum hinner
  | list hinner _ | object hinner _ | record hinner _ _ =>
    rw [hsome, hinner]
    exact ⟨_, rfl, .refl _⟩

end Value

/-- An outcome is a value that means the same as that of another one, or the same fault. -/
inductive Agrees : Except RunFault Value → Except RunFault Value → Prop
  | value {value other : Value} (h : value.Means other) : Agrees (.ok value) (.ok other)
  | fault (fault : RunFault) : Agrees (.error fault) (.error fault)

namespace Plan

variable {members : Members} {plan other left right first second : Plan} {ty : Ty}
variable {services : Services} {environment : Environment}

/-- What becomes of an operand fails where the operand does. -/
theorem Adapts.eval_error {fault : RunFault} (h : Adapts plan other)
    (hplan : plan.eval services environment = .error fault) :
    other.eval services environment = .error fault := by
  induction h with
  | refl => exact hplan
  | const hconstant _ =>
    obtain ⟨value, hvalue⟩ := Option.isSome_iff_exists.mp hconstant
    cases hplan.symm.trans (eval_of_constant? hvalue)
  | convert ty _ ih =>
    unfold eval
    rw [ih]
    rfl

/-- What becomes of an operand has its operators. -/
theorem Adapts.mem_operators {op : Operator} (h : Adapts plan other) (hop : op ∈ plan.operators) :
    op ∈ other.operators := by
  induction h with
  | refl => exact hop
  | const hconstant _ =>
    cases plan with
    | const _ _ => exact hop
    | _ => cases hconstant
  | convert ty _ ih => exact ih

/-- Where a plan gives a value of its type, the other plan gives one that means the same. -/
def Reproduces (members : Members) (plan other : Plan) : Prop :=
  ∀ services environment value, plan.eval services environment = .ok value →
    value.Conforms members plan.ty →
      ∃ result, other.eval services environment = .ok result ∧ result.Means value

/-- A plan reproduces itself. -/
theorem Reproduces.refl (plan : Plan) : Reproduces members plan plan :=
  fun _ _ value hvalue _ => ⟨value, hvalue, .refl value⟩

/-- What keeps the numbers of integers and decimals reproduces them. -/
theorem Keeps.reproduces (h : Keeps members plan other) (hplan : plan.ty.isExact = true)
    (hother : other.ty.isExact = true) : Reproduces members plan other := by
  intro services environment value hvalue hconforms
  obtain ⟨result, hresult, htype, hnumber⟩ := h services environment value hvalue hconforms
  exact ⟨result, hresult, htype.means_of_number? hother hconforms hplan hnumber⟩

/-- A conversion to a type that is the same but for `nullable` reproduces a plan. -/
theorem reproduces_convert (hcore : ty.core = plan.ty.core) :
    Reproduces members plan (plan.convert ty) := by
  unfold convert
  split
  · exact .refl plan
  · intro services environment value hvalue hconforms
    obtain ⟨result, hresult, hmeans⟩ := hconforms.convert_means hcore
    refine ⟨result, ?_, hmeans⟩
    unfold eval
    rw [hvalue]
    exact hresult

/-- A branch is reproduced at a type that is the same but for `nullable`, and a branch that is
`null` at every type. -/
theorem reproduces_liftBranch (h : plan.ty = .null ∨ ty.core = plan.ty.core) :
    Reproduces members plan (plan.liftBranch ty) := by
  unfold liftBranch
  split
  · rename_i hconstant
    intro services environment value hvalue _
    cases (eval_of_constant? hconstant).symm.trans hvalue
    exact ⟨_, rfl, .refl _⟩
  · rcases h with hnull | hcore
    · intro services environment value hvalue hconforms
      have hvalueNull : value = .null := (hnull ▸ hconforms).eq_null
      subst hvalueNull
      refine ⟨.null, ?_, .refl _⟩
      unfold convert
      split
      · exact hvalue
      · unfold eval
        rw [hvalue]
        rfl
    · exact reproduces_convert hcore

/-- Operands are brought to numbers of one sort only if both are numbers. -/
theorem coerceNumeric_of_isExact_eq_false (hleft : left.ty.underlying ≠ .float)
    (hright : right.ty.underlying ≠ .float)
    (h : ¬ (left.ty.isExact = true ∧ right.ty.isExact = true)) :
    coerceNumeric true left right = (left, right) := by
  rw [Ty.isExact_iff, Ty.isExact_iff] at h
  unfold coerceNumeric
  split
  · rename_i a b ha hb
    exact absurd ⟨.inl ⟨a, ha⟩, .inl ⟨b, hb⟩⟩ h
  · rename_i a ha hb
    exact absurd ⟨.inl ⟨a, ha⟩, .inr hb⟩ h
  · exact absurd ‹_› hright
  · rename_i b ha hb
    exact absurd ⟨.inr ha, .inl ⟨b, hb⟩⟩ h
  · exact absurd ‹_› hleft
  · exact absurd ‹_› hleft
  · exact absurd ‹_› hright
  · rfl

/-- Making both operands nullable reproduces their values. -/
theorem reproduces_alignNullability (left right : Plan) :
    Reproduces members left (alignNullability left right).1 ∧
      Reproduces members right (alignNullability left right).2 := by
  have hcore : ∀ {a b : Ty}, a.underlying = b → a.core = b.core := by
    rintro a _ rfl
    exact (Ty.core_underlying a).symm
  unfold alignNullability
  split
  · rename_i hcond
    have hty : left.ty.underlying = right.ty := (by simpa using hcond : _ ∧ _).2
    exact ⟨.refl left, reproduces_convert (hcore hty)⟩
  · split
    · rename_i hcond
      have hty : right.ty.underlying = left.ty := (by simpa using hcond : _ ∧ _).2
      exact ⟨reproduces_convert (hcore hty), .refl right⟩
    · exact ⟨.refl left, .refl right⟩

/-- Two operands that are no floats are reproduced by those that they are brought to. -/
theorem reproduces_leveled (hleft : left.ty.underlying ≠ .float)
    (hright : right.ty.underlying ≠ .float) :
    Reproduces members left (leveled left right).1 ∧
      Reproduces members right (leveled left right).2 := by
  by_cases hexact : left.ty.isExact = true ∧ right.ty.isExact = true
  · obtain ⟨hl, hr⟩ := hexact
    have hbrings : Brings members left right (leveled left right) := (brings_leveled hl hr).1
    obtain ⟨hbroughtLeft, hbroughtRight⟩ := hbrings.meet.isExact
    exact ⟨hbrings.left.reproduces hl hbroughtLeft, hbrings.right.reproduces hr hbroughtRight⟩
  · unfold leveled
    rw [coerceNumeric_of_isExact_eq_false hleft hright hexact]
    exact reproduces_alignNullability left right

/-- The branches of a conditional that are no floats are reproduced by those that they are brought
to. -/
theorem reproduces_unifyBranches (hleft : left.ty.underlying ≠ .float)
    (hright : right.ty.underlying ≠ .float)
    (h : unifyBranches left right = (first, second, ty)) :
    Reproduces members left first ∧ Reproduces members right second := by
  unfold unifyBranches at h
  split at h
  · cases h
    exact ⟨.refl left, .refl right⟩
  · split at h
    · cases h
      exact ⟨.refl left, .refl right⟩
    · split at h
      · cases h
        exact ⟨reproduces_liftBranch (.inl ‹_›), reproduces_liftBranch (.inr (Ty.core_orNull _))⟩
      · split at h
        · cases h
          exact ⟨reproduces_liftBranch (.inr (Ty.core_orNull _)), reproduces_liftBranch (.inl ‹_›)⟩
        · cases h
          exact reproduces_leveled hleft hright

/-- What reproduces an operand and is made of it agrees with it where it keeps its type. -/
theorem Reproduces.agrees (h : Reproduces members plan other) (hadapts : Adapts plan other)
    (hplan : Returns (plan.eval services environment) fun value =>
      value.Conforms members plan.ty) :
    Agrees (other.eval services environment) (plan.eval services environment) := by
  cases heval : plan.eval services environment with
  | error fault =>
    rw [hadapts.eval_error heval]
    exact .fault fault
  | ok value =>
    obtain ⟨result, hresult, hmeans⟩ := h services environment value heval (hplan value heval)
    rw [hresult]
    exact .value hmeans

/-- Nothing equals the truth value but itself. -/
theorem same_true_iff (value : Value) :
    value.same (.boolean true) = true ↔ value = .boolean true := by
  cases value with
  | boolean b => cases b <;> simp [Value.same, Value.compare]
  | float x => simp [Value.same, Value.compare, Value.compareNumbers, Value.float?]
  | decimal d => simp [Value.same, Value.compare, Value.compareNumbers, Value.decimal?]
  | _ => simp [Value.same, Value.compare, Value.compareNumbers]

/-- A test as a Boolean chooses the first branch where the test is true, and the second one where it
has another value. -/
theorem exists_chooses_of_asPredicate? {value : Value} (h : plan.asPredicate? = some first)
    (hvalue : plan.eval services environment = .ok value)
    (hconforms : value.Conforms members plan.ty) :
    ∃ truth chosen, first.eval services environment = .ok truth ∧ chooses truth = .ok chosen ∧
      (chosen = true ↔ value = .boolean true) := by
  rcases eq_of_asPredicate? h with ⟨hty, rfl⟩ | ⟨-, ty, -, rfl⟩
  · rw [hty] at hconforms
    refine ⟨value, ?_⟩
    cases hconforms with
    | null => exact ⟨false, hvalue, rfl, nofun, nofun⟩
    | @boolean b _ _ => exact ⟨b, hvalue, rfl, congrArg _, Value.boolean.inj⟩
    | any hcore | int hcore _ | uint hcore _ | float hcore | decimal hcore | text hcore
    | guid hcore | dateTime hcore | enum hcore | list hcore _ | object hcore _
    | record hcore _ _ => cases hcore
  · refine ⟨_, _, eval_operator rfl hvalue rfl, rfl, ?_⟩
    rw [← same_true_iff]
    simp

/-- A test as a Boolean fails where the test does. -/
theorem eval_asPredicate?_error {fault : RunFault} (h : plan.asPredicate? = some first)
    (hfault : plan.eval services environment = .error fault) :
    first.eval services environment = .error fault := by
  rcases eq_of_asPredicate? h with ⟨-, rfl⟩ | ⟨-, ty, -, rfl⟩
  · exact hfault
  · rw [eval_operator_eq_bind rfl, hfault]
    rfl

/-- A test as a Boolean has the operators of the test. -/
theorem mem_operators_of_asPredicate? {op : Operator} (h : plan.asPredicate? = some first)
    (hop : op ∈ plan.operators) : op ∈ first.operators := by
  rcases eq_of_asPredicate? h with ⟨-, rfl⟩ | ⟨-, ty, -, rfl⟩
  · exact hop
  · exact List.mem_append_right _ (List.mem_append_left _ hop)

end Plan

end TypedQuery
