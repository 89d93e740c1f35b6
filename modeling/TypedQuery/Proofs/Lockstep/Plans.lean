import TypedQuery.Compile.Basic
import TypedQuery.Proofs.Computation

/-!
# Plans that are alike

Two compilations may do the same and give plans that differ in little: in the names of
parameters, or in that one has parameters where the variables are written in place in the other.
The operands of operators and the branches of conditionals are brought together without a look at
the difference.
-/

namespace TypedQuery

/-- A variable with its value, as a call without arguments. A constant would not do, because
constants are converted ahead of time. -/
def Plan.written (name : String) (value : Value) : Plan :=
  .call value.staticType (constantName name) none (fun _ _ => .ok value) []

/-- How two compilations may differ that do the same. -/
structure Likeness where
  /-- Parameters that stand for each other. -/
  names : String → String → Prop
  /-- Parameters that are bound in the place of each other. -/
  binders : String → String → Prop
  /-- Sessions in which the compilations may be at the same time. -/
  sessions : Session → Session → Prop
  /-- The variables of the second compilation are written in place. -/
  written : Prop
  names_of_binders : ∀ {name other : String}, binders name other → names name other
  unique : ∀ {name other reference reference' : String}, binders name other →
    names reference reference' → (reference = name ↔ reference' = other)
  separate : written → ∀ {name other : String}, binders name other → ∀ x, name ≠ constantName x
  fresh : ∀ {ε : Type},
    Halting.Lockstep sessions binders (Run.freshName : Run ε String) Run.freshName
  create : ∀ {ε : Type} (fields : List (String × Ty)),
    Halting.Lockstep sessions Eq (Run.recordType fields : Run ε Signature) (Run.recordType fields)

namespace Plan

/-- Two plans are alike up to the names of parameters and to variables among the captured ones,
which are written in place in the second one. -/
inductive Alike (L : Likeness) (captured : List String) : Plan → Plan → Prop
  | const {ty : Ty} {value : Value} : Alike L captured (.const ty value) (.const ty value)
  | param {ty : Ty} {name other : String} (hname : L.names name other) :
      Alike L captured (.param ty name) (.param ty other)
  | unary {ty : Ty} {op : UnaryOp} {operand exact : Plan}
      (hoperand : Alike L captured operand exact) :
      Alike L captured (.unary ty op operand) (.unary ty op exact)
  | binary {ty : Ty} {op : BinaryOp} {left right left' right' : Plan}
      (hleft : Alike L captured left left') (hright : Alike L captured right right') :
      Alike L captured (.binary ty op left right) (.binary ty op left' right')
  | cond {ty : Ty} {test yes no test' yes' no' : Plan} (htest : Alike L captured test test')
      (hyes : Alike L captured yes yes') (hno : Alike L captured no no') :
      Alike L captured (.cond ty test yes no) (.cond ty test' yes' no')
  | bind {ty : Ty} {binder : Binder} {source body source' body' : Plan} {name other : String}
      (hname : L.binders name other) (hsource : Alike L captured source source')
      (hbody : Alike L captured body body') :
      Alike L captured (.bind ty binder source name body) (.bind ty binder source' other body')
  | record {ty : Ty} {fields : Signature} {pairs : List (Plan × Plan)}
      (hvalues : ∀ pair ∈ pairs, Alike L captured pair.1 pair.2) :
      Alike L captured (.record ty fields (pairs.map Prod.fst))
        (.record ty fields (pairs.map Prod.snd))
  | call {ty : Ty} {name service : String} {run : HostFunction} {pairs : List (Plan × Plan)}
      (harguments : ∀ pair ∈ pairs, Alike L captured pair.1 pair.2) :
      Alike L captured (.call ty name (some service) run (pairs.map Prod.fst))
        (.call ty name (some service) run (pairs.map Prod.snd))
  | written {name : String} {value : Value} (hwritten : L.written) (hname : name ∈ captured) :
      Alike L captured (.param value.staticType (constantName name)) (.written name value)

/-- The same for two plans at once. -/
def AlikeBoth (L : Likeness) (captured : List String) (pair exact : Plan × Plan) : Prop :=
  Alike L captured pair.1 exact.1 ∧ Alike L captured pair.2 exact.2

namespace Alike

variable {L : Likeness} {captured more : List String} {plan exact left right left' right' : Plan}

/-- Plans that are alike stay so when more variables count as captured. -/
theorem mono (h : Alike L captured plan exact) (hmore : ∀ name ∈ captured, name ∈ more) :
    Alike L more plan exact := by
  induction h with
  | const => exact .const
  | param hname => exact .param hname
  | unary _ ih => exact .unary ih
  | binary _ _ ihl ihr => exact .binary ihl ihr
  | cond _ _ _ iht ihy ihn => exact .cond iht ihy ihn
  | bind hname _ _ ihs ihb => exact .bind hname ihs ihb
  | record _ ih => exact .record ih
  | call _ ih => exact .call ih
  | written hwritten hname => exact .written hwritten (hmore _ hname)

/-- Alike plans have the same type. -/
theorem ty_eq (h : Alike L captured plan exact) : plan.ty = exact.ty := by
  cases h <;> rfl

/-- Of alike plans both are the same constant or neither is one. -/
theorem constant?_eq (h : Alike L captured plan exact) : plan.constant? = exact.constant? := by
  cases h <;> rfl

/-- Converting alike plans to one type keeps them alike. -/
theorem convert (h : Alike L captured plan exact) (ty : Ty) :
    Alike L captured (plan.convert ty) (exact.convert ty) := by
  unfold Plan.convert
  rw [h.ty_eq]
  split
  · exact h
  · exact .unary h

/-- Reducing alike lists keeps them alike. -/
theorem reduce (h : Alike L captured plan exact) (reduction : Reduction) :
    Alike L captured (plan.reduce reduction) (exact.reduce reduction) := by
  unfold Plan.reduce
  rw [h.ty_eq]
  exact .unary h

/-- Removing repetitions from alike lists keeps them alike. -/
theorem distinct (h : Alike L captured plan exact) :
    Alike L captured plan.distinct exact.distinct := by
  unfold Plan.distinct
  rw [h.ty_eq]
  exact .unary h

/-- A cut has the type of the list. -/
theorem cut (hleft : Alike L captured left left') (hright : Alike L captured right right')
    (op : BinaryOp) :
    Alike L captured (.binary left.ty op left right) (.binary left'.ty op left' right') := by
  rw [hleft.ty_eq]
  exact .binary hleft hright

variable {name other : String}

/-- Filters of alike lists by alike tests are alike. -/
theorem filter (hname : L.binders name other) (hsource : Alike L captured left left')
    (hbody : Alike L captured right right') :
    Alike L captured (left.filter name right) (left'.filter other right') := by
  unfold Plan.filter
  rw [hsource.ty_eq]
  exact .bind hname hsource hbody

/-- Alike lists that are sorted by alike keys are alike. -/
theorem orderBy (hname : L.binders name other) (hsource : Alike L captured left left')
    (hbody : Alike L captured right right') (descending : Bool) :
    Alike L captured (left.orderBy name right descending)
      (left'.orderBy other right' descending) := by
  unfold Plan.orderBy
  rw [hsource.ty_eq]
  exact .bind hname hsource hbody

/-- Alike lists with alike bodies give alike projections. -/
theorem project (hname : L.binders name other) (hsource : Alike L captured left left')
    (hbody : Alike L captured right right') :
    Alike L captured (left.project name right) (left'.project other right') := by
  unfold Plan.project
  rw [hbody.ty_eq]
  exact .bind hname hsource hbody

/-- Alike bodies on alike values are alike, the parameters standing for each other. -/
theorem given (hname : L.binders name other) (hsource : Alike L captured left left')
    (hbody : Alike L captured right right') :
    Alike L captured (left.given name right) (left'.given other right') := by
  unfold Plan.given
  rw [hbody.ty_eq]
  exact .bind hname hsource hbody

/-- Of alike plans both can be tests or neither can, and the tests are alike. -/
theorem asPredicate? (h : Alike L captured plan exact) :
    Option.Rel (Alike L captured) plan.asPredicate? exact.asPredicate? := by
  unfold Plan.asPredicate?
  rw [h.ty_eq]
  split
  · exact .some h
  · exact .some (.binary h .const)
  · exact .some (.binary h .const)
  · exact .none

/-- An operator refuses alike operands in the same words. -/
theorem mismatch_eq (hleft : Alike L captured left left') (hright : Alike L captured right right')
    (op : Operator) : mismatch op left right = mismatch op left' right' := by
  unfold mismatch
  rw [hleft.ty_eq, hright.ty_eq]

/-- Logical operators accept alike operands or refuse both, with alike results. -/
theorem reconcileLogical (hleft : Alike L captured left left')
    (hright : Alike L captured right right') (op : Operator) :
    Parallel (Alike L captured) (reconcileLogical op left right)
      (Plan.reconcileLogical op left' right') := by
  unfold Plan.reconcileLogical
  rw [mismatch_eq hleft hright]
  have hl := hleft.asPredicate?
  have hr := hright.asPredicate?
  generalize left.asPredicate? = l, left'.asPredicate? = l' at hl ⊢
  generalize right.asPredicate? = r, right'.asPredicate? = r' at hr ⊢
  cases hl with
  | none => exact .error _
  | some hl =>
    cases hr with
    | none => exact .error _
    | some hr => exact .ok (.binary hl hr)

/-- Operators on texts accept alike operands or refuse both, with alike results. -/
theorem reconcileStrings (hleft : Alike L captured left left')
    (hright : Alike L captured right right') (op : Operator) :
    Parallel (Alike L captured) (reconcileStrings op left right)
      (Plan.reconcileStrings op left' right') := by
  unfold Plan.reconcileStrings
  rw [mismatch_eq hleft hright]
  split
  · exact .ok (.binary hleft hright)
  · split
    · exact .ok (.binary hleft hright)
    · split
      · exact .ok (.binary (.binary hleft hright) .const)
      · exact .error _

/-- Comparisons with `null` accept alike operands or refuse both, with alike results. -/
theorem reconcileNull (hleft : Alike L captured left left') (hright : Alike L captured right right')
    (op : Operator) :
    Parallel (Alike L captured) (reconcileNull op left right)
      (Plan.reconcileNull op left' right') := by
  unfold Plan.reconcileNull
  rw [mismatch_eq hleft hright, hleft.ty_eq, hright.ty_eq]
  split
  · exact .ok (.binary hleft hright)
  · exact .error _

/-- A constant text is taken for what it looks like in both of two alike plans or in neither. -/
theorem sniff (h : Alike L captured plan exact) : Alike L captured plan.sniff exact.sniff := by
  unfold Plan.sniff
  rw [h.constant?_eq]
  split
  · split
    · exact .const
    · exact h
  · exact h

/-- Texts opposite dynamic operands are taken for what they look like in both pairs alike. -/
theorem sniffDynamic (hleft : Alike L captured left left')
    (hright : Alike L captured right right') :
    AlikeBoth L captured (sniffDynamic left right) (Plan.sniffDynamic left' right') := by
  unfold Plan.sniffDynamic
  rw [hleft.ty_eq, hright.ty_eq]
  split
  · exact ⟨hleft, hright.sniff⟩
  · split
    · exact ⟨hleft.sniff, hright⟩
    · exact ⟨hleft, hright⟩

/-- Bringing alike texts to a type gives alike plans or the same refusal. -/
theorem textTo (h : Alike L captured plan exact) (target : Ty) (refusal : CompileFault) :
    Parallel (Alike L captured) (plan.textTo target refusal) (exact.textTo target refusal) := by
  unfold Plan.textTo
  rw [h.constant?_eq]
  split
  · refine .bind (.self _) ?_
    rintro value? _ rfl
    cases value? with
    | some value => exact .ok .const
    | none => exact .error _
  · exact .ok .const
  · exact .ok (h.convert target)

/-- Texts opposite identifiers and timestamps are brought to them in both pairs alike. -/
theorem coerceText (hleft : Alike L captured left left') (hright : Alike L captured right right')
    (op : Operator) :
    Parallel (AlikeBoth L captured) (coerceText op left right)
      (Plan.coerceText op left' right') := by
  unfold Plan.coerceText
  rw [mismatch_eq hleft hright, hleft.ty_eq, hright.ty_eq]
  dsimp only
  split
  · exact .bind (hright.textTo _ _) fun _ _ h => .ok ⟨hleft, h⟩
  · exact .bind (hleft.textTo _ _) fun _ _ h => .ok ⟨h, hright⟩
  · exact .ok ⟨hleft, hright⟩

/-- Alike operands opposite an enumeration become alike or are refused alike. -/
theorem enumOperand (h : Alike L captured plan exact) (schema : Schema) (name : String) :
    Parallel (Alike L captured) (plan.enumOperand schema name) (exact.enumOperand schema name) := by
  unfold Plan.enumOperand
  rw [h.constant?_eq, h.ty_eq]
  extract_lets declared ofInteger
  have hinteger : ∀ constant n,
      Parallel (Alike L captured) (ofInteger constant n) (ofInteger constant n) := by
    intro constant n
    unfold ofInteger
    split
    · exact .ok .const
    · split
      · exact .ok .const
      · exact .error _
  split
  · split
    · exact .ok .const
    · exact .error _
  · exact hinteger _ _
  · exact hinteger _ _
  · split
    · exact .ok (h.convert _)
    · exact .ok h

/-- Operands opposite enumerations are brought to them in both pairs alike. -/
theorem coerceEnum (hleft : Alike L captured left left') (hright : Alike L captured right right')
    (schema : Schema) :
    Parallel (AlikeBoth L captured) (coerceEnum schema left right)
      (Plan.coerceEnum schema left' right') := by
  unfold Plan.coerceEnum
  rw [hleft.ty_eq, hright.ty_eq]
  split
  · split
    · exact .ok ⟨hleft, hright⟩
    · exact .bind (hright.enumOperand _ _) fun _ _ h => .ok ⟨hleft, h⟩
  · exact .bind (hright.enumOperand _ _) fun _ _ h => .ok ⟨hleft, h⟩
  · exact .bind (hleft.enumOperand _ _) fun _ _ h => .ok ⟨h, hright⟩
  · exact .ok ⟨hleft, hright⟩

/-- Converting alike operands to one type keeps them alike. -/
theorem convertOperand (h : Alike L captured plan exact) (ty : Ty) :
    Alike L captured (plan.convertOperand ty) (exact.convertOperand ty) := by
  have hfolded : plan.folded? ty = exact.folded? ty := by
    unfold Plan.folded?
    rw [h.constant?_eq]
  unfold Plan.convertOperand
  rw [hfolded]
  split
  · exact .const
  · exact h.convert ty

/-- Converting alike operands to a type, with `null` where they may be `null`, keeps them alike. -/
theorem convertLike (h : Alike L captured plan exact) (ty : Ty) :
    Alike L captured (plan.convertLike ty) (exact.convertLike ty) := by
  unfold Plan.convertLike
  rw [h.ty_eq]
  exact h.convertOperand _

/-- Widening alike integers to one kind keeps them alike. -/
theorem widenTo (h : Alike L captured plan exact) (kind : IntKind) :
    Alike L captured (plan.widenTo kind) (exact.widenTo kind) := by
  unfold Plan.widenTo
  rw [h.ty_eq]
  split
  · exact h
  · exact h.convertLike _

/-- Integers of two kinds are brought to one kind in both pairs alike. -/
theorem coerceKinds (hleft : Alike L captured left left') (hright : Alike L captured right right')
    (widen : Bool) (a b : IntKind) :
    AlikeBoth L captured (coerceKinds widen a b left right)
      (Plan.coerceKinds widen a b left' right') := by
  have hfits : ∀ {plan exact : Plan} (kind : IntKind), Alike L captured plan exact →
      plan.constantFits kind = exact.constantFits kind := by
    intro plan exact kind h
    unfold Plan.constantFits
    rw [h.constant?_eq]
  unfold Plan.coerceKinds
  rw [hfits b hleft, hfits a hright]
  split
  · exact ⟨hleft, hright⟩
  · split
    · split
      · exact ⟨hleft, hright.convertLike _⟩
      · split
        · exact ⟨hleft.convertLike _, hright⟩
        · split
          · exact ⟨hleft.widenTo _, hright.widenTo _⟩
          · exact ⟨hleft, hright⟩
    · split
      · exact ⟨hleft, hright.convertLike _⟩
      · exact ⟨hleft, hright⟩

/-- Numbers are brought to one type in both pairs alike. -/
theorem coerceNumeric (hleft : Alike L captured left left') (hright : Alike L captured right right')
    (widen : Bool) :
    AlikeBoth L captured (coerceNumeric widen left right)
      (Plan.coerceNumeric widen left' right') := by
  unfold Plan.coerceNumeric
  rw [hleft.ty_eq, hright.ty_eq]
  split
  · exact coerceKinds hleft hright widen _ _
  · exact ⟨hleft.convertLike _, hright⟩
  · exact ⟨hleft.convertLike _, hright⟩
  · exact ⟨hleft, hright.convertLike _⟩
  · exact ⟨hleft, hright.convertLike _⟩
  · exact ⟨hleft.convertLike _, hright⟩
  · exact ⟨hleft, hright.convertLike _⟩
  · exact ⟨hleft, hright⟩

/-- Operands of which one may be `null` are aligned in both pairs alike. -/
theorem alignNullability (hleft : Alike L captured left left')
    (hright : Alike L captured right right') :
    AlikeBoth L captured (alignNullability left right) (Plan.alignNullability left' right') := by
  unfold Plan.alignNullability
  rw [hleft.ty_eq, hright.ty_eq]
  split
  · exact ⟨hleft, hright.convert _⟩
  · split
    · exact ⟨hleft.convert _, hright⟩
    · exact ⟨hleft, hright⟩

/-- An operator on alike operands of one type is alike or refuses both. -/
theorem direct (hleft : Alike L captured left left') (hright : Alike L captured right right')
    (op : Operator) :
    Parallel (Alike L captured) (direct op left right) (Plan.direct op left' right') := by
  unfold Plan.direct
  rw [mismatch_eq hleft hright, hleft.ty_eq, hright.ty_eq]
  split
  · exact .ok (.binary hleft hright)
  · split
    · exact .error _
    · split
      · exact .ok (.binary hleft hright)
      · split
        · exact .ok (.binary hleft hright)
        · exact .error _

/-- Operators with operands of known types accept alike operands or refuse both. -/
theorem reconcileStatic (hleft : Alike L captured left left')
    (hright : Alike L captured right right') (schema : Schema) (op : Operator) :
    Parallel (Alike L captured) (reconcileStatic schema op left right)
      (Plan.reconcileStatic schema op left' right') := by
  refine .bind (coerceText hleft hright op) fun _ _ ⟨hl, hr⟩ => ?_
  refine .bind (coerceEnum hl hr schema) fun _ _ ⟨hl, hr⟩ => ?_
  obtain ⟨hl, hr⟩ := coerceNumeric hl hr op.isComparison
  obtain ⟨hl, hr⟩ := alignNullability hl hr
  exact direct hl hr op

/-- The plans of an operator are alike if its operands are. -/
theorem reconcile (hleft : Alike L captured left left') (hright : Alike L captured right right')
    (schema : Schema) (op : Operator) :
    Parallel (Alike L captured) (reconcile schema op left right)
      (Plan.reconcile schema op left' right') := by
  unfold Plan.reconcile
  split
  · exact reconcileLogical hleft hright op
  · obtain ⟨hl, hr⟩ := sniffDynamic hleft hright
    generalize Plan.sniffDynamic left right = pair at hl hr ⊢
    generalize Plan.sniffDynamic left' right' = pair' at hl hr ⊢
    obtain ⟨l, r⟩ := pair
    obtain ⟨l', r'⟩ := pair'
    dsimp only at hl hr ⊢
    rw [hl.ty_eq, hr.ty_eq]
    split
    · exact .ok (.binary hl hr)
    · split
      · exact reconcileStrings hl hr op
      · split
        · exact reconcileNull hl hr op
        · exact reconcileStatic hl hr schema op

/-- Lifting alike branches to one type keeps them alike. -/
theorem liftBranch (h : Alike L captured plan exact) (ty : Ty) :
    Alike L captured (plan.liftBranch ty) (exact.liftBranch ty) := by
  unfold Plan.liftBranch
  rw [h.constant?_eq]
  split
  · exact .const
  · exact h.convert ty

/-- Alike branches are brought to one and the same type and stay alike. -/
theorem unifyBranches (hleft : Alike L captured left left')
    (hright : Alike L captured right right') :
    Alike L captured (unifyBranches left right).1 (Plan.unifyBranches left' right').1 ∧
      Alike L captured (Plan.unifyBranches left right).2.1 (Plan.unifyBranches left' right').2.1 ∧
        (Plan.unifyBranches left right).2.2 = (Plan.unifyBranches left' right').2.2 := by
  unfold Plan.unifyBranches
  rw [hleft.ty_eq, hright.ty_eq]
  split
  · exact ⟨hleft, hright, rfl⟩
  · split
    · exact ⟨hleft, hright, rfl⟩
    · split
      · exact ⟨hleft.liftBranch _, hright.liftBranch _, rfl⟩
      · split
        · exact ⟨hleft.liftBranch _, hright.liftBranch _, rfl⟩
        · obtain ⟨hl, hr⟩ := coerceNumeric hleft hright true
          obtain ⟨hl, hr⟩ := alignNullability hl hr
          refine ⟨hl, hr, ?_⟩
          dsimp only
          rw [hl.ty_eq, hr.ty_eq]

end Alike

end Plan

end TypedQuery
