import TypedQuery.Compile.Basic
import TypedQuery.Proofs.Calendar.Reading
import TypedQuery.Proofs.Computation
import TypedQuery.Proofs.Plan.Relating

/-!
# Comparisons with spelled timestamps

A constant text with the shape of a timestamp that is opposite a timestamp is compared as the
instant that it denotes, if it is complete. One that stops at its minutes has the shape too, but is
refused on either side of every comparison.
-/

namespace TypedQuery

namespace Plan

variable {schema : Schema} {op : Operator} {plan left right : Plan} {text : String} {t : DateTime}

/-- A text that is written out. -/
def ofText (text : String) : Plan :=
  .const .string (.text text)

/-- An instant that is written out. -/
def ofDateTime (t : DateTime) : Plan :=
  .const .dateTime (.dateTime t)

/-- The types of timestamps are two, one with `null` and one without. -/
theorem eq_of_underlying_dateTime {ty : Ty} (h : ty.underlying = .dateTime) :
    ty = .dateTime ∨ ty = .nullable .dateTime := by
  cases ty with
  | nullable inner => exact Or.inr (congrArg Ty.nullable h)
  | _ => exact Or.inl h

/-- An operand that is a timestamp is no text, and its type is neither dynamic nor that of
`null`. -/
structure IsTimestamp (plan : Plan) : Prop where
  underlying : plan.ty.underlying = .dateTime

/-- An instant that is written out is a timestamp. -/
theorem isTimestamp_ofDateTime (t : DateTime) : (ofDateTime t).IsTimestamp :=
  ⟨rfl⟩

namespace IsTimestamp

/-- A timestamp is no text. -/
theorem isString (h : plan.IsTimestamp) : plan.ty.isString = false := by
  unfold Ty.isString
  rw [h.underlying]

/-- The type of a timestamp is not dynamic. -/
theorem ne_any (h : plan.IsTimestamp) : plan.ty ≠ .any := by
  intro hty
  have := h.underlying
  rw [hty] at this
  cases this

/-- The type of a timestamp is not that of `null`. -/
theorem ne_null (h : plan.IsTimestamp) : plan.ty ≠ .null := by
  intro hty
  have := h.underlying
  rw [hty] at this
  cases this

/-- A comparison with a timestamp brings texts to timestamps. -/
theorem textTarget? (h : plan.IsTimestamp) (hop : op.isComparison = true) :
    Plan.textTarget? op plan.ty = some .dateTime := by
  unfold Plan.textTarget?
  rw [h.underlying]
  exact if_pos hop

end IsTimestamp

/-- Operands whose types are known, and which are not both texts, are brought to one type. -/
theorem reconcile_eq_static (hop : op.isLogical = false)
    (hany : left.ty ≠ .any ∧ right.ty ≠ .any) (hnull : left.ty ≠ .null ∧ right.ty ≠ .null)
    (hstring : (left.ty.isString && right.ty.isString) = false) :
    reconcile schema op left right = reconcileStatic schema op left right := by
  have hsniff : sniffDynamic left right = (left, right) := by
    unfold sniffDynamic
    rw [if_neg fun h => hany.1 h.1, if_neg fun h => hany.2 h.2]
  unfold reconcile
  rw [hop, if_neg Bool.false_ne_true, hsniff]
  dsimp only
  rw [if_neg (not_or.mpr hany), hstring, if_neg Bool.false_ne_true,
    if_neg (not_or.mpr hnull)]

/-- After texts have been read, operands go on alike. -/
theorem reconcileStatic_congr {others : Plan × Plan} {otherLeft otherRight : Plan}
    (h : coerceText op left right = .ok others)
    (hother : coerceText op otherLeft otherRight = .ok others) :
    reconcileStatic schema op left right = reconcileStatic schema op otherLeft otherRight := by
  unfold reconcileStatic
  rw [h, hother]

/-- Operands are refused where a text is. -/
theorem reconcileStatic_of_error {fault : CompileFault}
    (h : coerceText op left right = .error fault) :
    reconcileStatic schema op left right = .error fault := by
  unfold reconcileStatic
  rw [h]
  rfl

/-- Between two timestamps there is no text to be brought to another type. -/
theorem coerceText_of_timestamps (op : Operator) (hleft : left.IsTimestamp)
    (hright : right.IsTimestamp) : coerceText op left right = .ok (left, right) := by
  unfold coerceText
  rw [hleft.isString, hright.isString]
  rfl

/-- A timestamp without `null` opposite one with it gets its type. -/
theorem ty_alignNullability (hleft : left.IsTimestamp) (hright : right.IsTimestamp) :
    (alignNullability left right).1.ty = (alignNullability left right).2.ty ∧
      (alignNullability left right).1.ty.isOrderable = true := by
  unfold alignNullability
  rcases eq_of_underlying_dateTime hleft.underlying with hl | hl <;>
    rcases eq_of_underlying_dateTime hright.underlying with hr | hr <;>
    simp [hl, hr, Ty.isNullable, Ty.isOrderable, Ty.underlying, convert_ty]

/-- Two timestamps may be compared. -/
theorem exists_reconcileStatic (schema : Schema) (hop : op.isComparison = true)
    (hleft : left.IsTimestamp) (hright : right.IsTimestamp) :
    ∃ result, reconcileStatic schema op left right = .ok result := by
  have henum : coerceEnum schema left right = .ok (left, right) := by
    unfold coerceEnum
    rw [hleft.underlying, hright.underlying]
  have hnumeric : coerceNumeric op.isComparison left right = (left, right) := by
    unfold coerceNumeric
    rw [hleft.underlying, hright.underlying]
  have hdirect : direct op
      (alignNullability (coerceNumeric op.isComparison left right).1
        (coerceNumeric op.isComparison left right).2).1
      (alignNullability (coerceNumeric op.isComparison left right).1
        (coerceNumeric op.isComparison left right).2).2 =
      direct op (alignNullability left right).1 (alignNullability left right).2 := by
    rw [hnumeric]
  have hstatic : reconcileStatic schema op left right =
      direct op (alignNullability left right).1 (alignNullability left right).2 := by
    unfold reconcileStatic
    rw [coerceText_of_timestamps op hleft hright]
    change (coerceEnum schema left right >>= _) = _
    rw [henum]
    exact hdirect
  obtain ⟨hty, horderable⟩ := ty_alignNullability hleft hright
  have hcompares : (op.isEquality || (op.isRelational &&
      (alignNullability left right).1.ty.isOrderable)) = true := by
    rw [horderable, Bool.and_true]
    exact hop
  rw [hstatic]
  unfold direct
  by_cases hints : (op.isComparison && (alignNullability left right).1.ty.intKind?.isSome &&
      (alignNullability left right).2.ty.intKind?.isSome) = true
  · rw [if_pos hints]
    exact ⟨_, rfl⟩
  · rw [if_neg hints, if_neg (not_not.mpr hty), if_pos hcompares]
    exact ⟨_, rfl⟩

/-! ### Texts with the shape of a timestamp -/

/-- A text that is read becomes the instant. -/
theorem textTo_of_read (fault : CompileFault) (hshaped : DateTime.isShaped text = true)
    (hread : DateTime.read? text = some t) :
    (ofText text).textTo .dateTime fault = .ok (ofDateTime t) := by
  have hvalue : readShaped? text .dateTime = .ok (some (.dateTime t)) := by
    unfold readShaped?
    dsimp only
    rw [if_pos hshaped, hread]
  change (readShaped? text .dateTime >>= _) = _
  rw [hvalue]
  rfl

/-- A text that is not read is refused. -/
theorem textTo_of_unread (fault : CompileFault) (hshaped : DateTime.isShaped text = true)
    (hread : DateTime.read? text = none) :
    (ofText text).textTo .dateTime fault =
      .error (.argument "DateTime" (.notShaped text .dateTime)) := by
  have hvalue : readShaped? text .dateTime =
      .error (.argument "DateTime" (.notShaped text .dateTime)) := by
    unfold readShaped?
    dsimp only
    rw [if_pos hshaped, hread]
  change (readShaped? text .dateTime >>= _) = _
  rw [hvalue]
  rfl

/-- A text on the right of a timestamp is read. -/
theorem coerceText_right (h : plan.IsTimestamp) (hop : op.isComparison = true) :
    coerceText op plan (ofText text) = (do
      return (plan, ← (ofText text).textTo .dateTime (mismatch op plan (ofText text)))) := by
  have hstring : (ofText text).ty.isString = true := rfl
  unfold coerceText
  dsimp only
  rw [hstring, if_pos rfl, h.textTarget? hop]

/-- A text on the left of a timestamp is read. -/
theorem coerceText_left (h : plan.IsTimestamp) (hop : op.isComparison = true) :
    coerceText op (ofText text) plan = (do
      return (← (ofText text).textTo .dateTime (mismatch op (ofText text) plan), plan)) := by
  have hstring : (ofText text).ty.isString = true := rfl
  unfold coerceText
  dsimp only
  rw [hstring, if_pos rfl, h.isString, if_neg Bool.false_ne_true, h.textTarget? hop]

/-- Opposite a timestamp, on either side, texts and instants are brought to one type. -/
theorem IsTimestamp.reconcile_static (h : plan.IsTimestamp) (schema : Schema)
    (hop : op.isComparison = true) (other : Plan)
    (hother : other.ty = .string ∨ other.ty = .dateTime) :
    reconcile schema op plan other = reconcileStatic schema op plan other ∧
      reconcile schema op other plan = reconcileStatic schema op other plan := by
  have hlogical : op.isLogical = false := isLogical_of_isComparison hop
  have hstring : plan.ty.isString = false := h.isString
  have hany : other.ty ≠ .any ∧ other.ty ≠ .null := by
    rcases hother with hty | hty <;> rw [hty] <;> exact ⟨nofun, nofun⟩
  constructor
  · refine reconcile_eq_static hlogical ⟨h.ne_any, hany.1⟩ ⟨h.ne_null, hany.2⟩ ?_
    rw [hstring, Bool.false_and]
  · refine reconcile_eq_static hlogical ⟨hany.1, h.ne_any⟩ ⟨hany.2, h.ne_null⟩ ?_
    rw [hstring, Bool.and_false]

/-- Opposite a timestamp, on either side, a text that is read may be compared, and is taken as the
instant. -/
theorem IsTimestamp.reconcile_read (h : plan.IsTimestamp) (schema : Schema)
    (hop : op.isComparison = true) (hshaped : DateTime.isShaped text = true)
    (hread : DateTime.read? text = some t) :
    (∃ result, reconcile schema op plan (ofText text) = .ok result ∧
      reconcile schema op plan (ofDateTime t) = .ok result) ∧
    ∃ result, reconcile schema op (ofText text) plan = .ok result ∧
      reconcile schema op (ofDateTime t) plan = .ok result := by
  have hinstant : (ofDateTime t).IsTimestamp := isTimestamp_ofDateTime t
  obtain ⟨htextRight, htextLeft⟩ := h.reconcile_static schema hop (ofText text) (Or.inl rfl)
  obtain ⟨hright, hleft⟩ := h.reconcile_static schema hop (ofDateTime t) (Or.inr rfl)
  constructor
  · have hcoerced : coerceText op plan (ofText text) = .ok (plan, ofDateTime t) := by
      rw [coerceText_right h hop, textTo_of_read _ hshaped hread]
      rfl
    obtain ⟨result, hresult⟩ := exists_reconcileStatic schema hop h hinstant
    refine ⟨result, ?_, hright.trans hresult⟩
    rw [htextRight, reconcileStatic_congr hcoerced (coerceText_of_timestamps op h hinstant)]
    exact hresult
  · have hcoerced : coerceText op (ofText text) plan = .ok (ofDateTime t, plan) := by
      rw [coerceText_left h hop, textTo_of_read _ hshaped hread]
      rfl
    obtain ⟨result, hresult⟩ := exists_reconcileStatic schema hop hinstant h
    refine ⟨result, ?_, hleft.trans hresult⟩
    rw [htextLeft, reconcileStatic_congr hcoerced (coerceText_of_timestamps op hinstant h)]
    exact hresult

/-- Opposite a timestamp, on either side, a text with the shape of one that is not read is
refused. -/
theorem IsTimestamp.reconcile_unread (h : plan.IsTimestamp) (schema : Schema)
    (hop : op.isComparison = true) (hshaped : DateTime.isShaped text = true)
    (hread : DateTime.read? text = none) :
    reconcile schema op plan (ofText text) =
        .error (.argument "DateTime" (.notShaped text .dateTime)) ∧
      reconcile schema op (ofText text) plan =
        .error (.argument "DateTime" (.notShaped text .dateTime)) := by
  obtain ⟨hright, hleft⟩ := h.reconcile_static schema hop (ofText text) (Or.inl rfl)
  constructor
  · rw [hright]
    refine reconcileStatic_of_error ?_
    rw [coerceText_right h hop, textTo_of_unread _ hshaped hread]
    rfl
  · rw [hleft]
    refine reconcileStatic_of_error ?_
    rw [coerceText_left h hop, textTo_of_unread _ hshaped hread]
    rfl

end Plan

/-! ### Comparisons in expressions -/

open Halting

/-- Wherever an expression is a timestamp, it may be compared with the text, on both sides, and is
compared with the instant. -/
structure ComparesAs (text : String) (t : DateTime) : Prop where
  right : ∀ {scope : Scope} {capture : Capture} {fields : FieldCompiler} {context node : Node}
    {expr : Expr} {session final : Session} (op : Operator), op.isComparison = true →
    (scope.compileExpr capture fields context expr) session = .ok node final →
    node.plan.IsTimestamp →
    ∃ plan, Plan.reconcile scope.schema op node.plan (.ofDateTime t) = .ok plan ∧
      (scope.compileExpr capture fields context (.binary op expr (.literal (.text text))))
        session = .ok (node.join (Literal.text text).node plan) final
  left : ∀ {scope : Scope} {capture : Capture} {fields : FieldCompiler} {context node : Node}
    {expr : Expr} {session final : Session} (op : Operator), op.isComparison = true →
    (scope.compileExpr capture fields context expr) session = .ok node final →
    node.plan.IsTimestamp →
    ∃ plan, Plan.reconcile scope.schema op (.ofDateTime t) node.plan = .ok plan ∧
      (scope.compileExpr capture fields context (.binary op (.literal (.text text)) expr))
        session = .ok ((Literal.text text).node.join node plan) final

/-- Wherever an expression is a timestamp, all comparisons with the text are refused. -/
structure RefusedOpposite (text : String) : Prop where
  right : ∀ {scope : Scope} {capture : Capture} {fields : FieldCompiler} {context node : Node}
    {expr : Expr} {session final : Session} (op : Operator), op.isComparison = true →
    (scope.compileExpr capture fields context expr) session = .ok node final →
    node.plan.IsTimestamp →
    (scope.compileExpr capture fields context (.binary op expr (.literal (.text text))))
      session = .error (.fault (.argument "DateTime" (.notShaped text .dateTime))) final
  left : ∀ {scope : Scope} {capture : Capture} {fields : FieldCompiler} {context node : Node}
    {expr : Expr} {session final : Session} (op : Operator), op.isComparison = true →
    (scope.compileExpr capture fields context expr) session = .ok node final →
    node.plan.IsTimestamp →
    (scope.compileExpr capture fields context (.binary op (.literal (.text text)) expr))
      session = .error (.fault (.argument "DateTime" (.notShaped text .dateTime))) final

variable {text : String} {t : DateTime}

/-- An operator on compiled operands is what their plans are reconciled to. -/
theorem Scope.compileExpr_binary {scope : Scope} {capture : Capture} {fields : FieldCompiler}
    {context l r : Node} {left right : Expr} {op : Operator} {session between final : Session}
    (hleft : (scope.compileExpr capture fields context left) session = .ok l between)
    (hright : (scope.compileExpr capture fields context right) between = .ok r final) :
    (scope.compileExpr capture fields context (.binary op left right)) session =
      (do return l.join r (← Halting.ofExcept (Plan.reconcile scope.schema op l.plan r.plan)) :
        Compile Node) final := by
  rw [Scope.compileExpr, bind_of_ok hleft, bind_of_ok hright]

/-- A literal compiles to its node, whatever the context is. -/
theorem Scope.compileExpr_literal {scope : Scope} {capture : Capture} {fields : FieldCompiler}
    {context : Node} (value : Literal) (session : Session) :
    (scope.compileExpr capture fields context (.literal value)) session =
      .ok value.node session := by
  rw [Scope.compileExpr]
  rfl

/-- A shaped text that is read as an instant compares as this instant. -/
theorem ComparesAs.of_read (hshaped : DateTime.isShaped text = true)
    (hread : DateTime.read? text = some t) : ComparesAs text t where
  right {scope capture fields context node expr session final} op hop hexpr hnode := by
    obtain ⟨⟨plan, htext, hinstant⟩, -⟩ := hnode.reconcile_read scope.schema hop hshaped hread
    have hreconcile : Plan.reconcile scope.schema op node.plan (Literal.text text).node.plan =
        .ok plan := htext
    refine ⟨plan, hinstant, ?_⟩
    rw [Scope.compileExpr_binary hexpr (Scope.compileExpr_literal _ _), hreconcile]
    rfl
  left {scope capture fields context node expr session final} op hop hexpr hnode := by
    obtain ⟨-, plan, htext, hinstant⟩ := hnode.reconcile_read scope.schema hop hshaped hread
    have hreconcile : Plan.reconcile scope.schema op (Literal.text text).node.plan node.plan =
        .ok plan := htext
    refine ⟨plan, hinstant, ?_⟩
    rw [Scope.compileExpr_binary (Scope.compileExpr_literal _ _) hexpr, hreconcile]
    rfl

/-- A shaped text that is not read is refused opposite timestamps. -/
theorem RefusedOpposite.of_unread (hshaped : DateTime.isShaped text = true)
    (hread : DateTime.read? text = none) : RefusedOpposite text where
  right {scope capture fields context node expr session final} op hop hexpr hnode := by
    obtain ⟨hrefused, -⟩ := hnode.reconcile_unread scope.schema hop hshaped hread
    have hreconcile : Plan.reconcile scope.schema op node.plan (Literal.text text).node.plan =
        .error (.argument "DateTime" (.notShaped text .dateTime)) := hrefused
    rw [Scope.compileExpr_binary hexpr (Scope.compileExpr_literal _ _), hreconcile]
    rfl
  left {scope capture fields context node expr session final} op hop hexpr hnode := by
    obtain ⟨-, hrefused⟩ := hnode.reconcile_unread scope.schema hop hshaped hread
    have hreconcile : Plan.reconcile scope.schema op (Literal.text text).node.plan node.plan =
        .error (.argument "DateTime" (.notShaped text .dateTime)) := hrefused
    rw [Scope.compileExpr_binary (Scope.compileExpr_literal _ _) hexpr, hreconcile]
    rfl

namespace DateTime

/-- An ASCII text with the shape of a timestamp spells one. If what it spells exists and is
complete, it is read as the instant that it denotes, and compared with timestamps as this instant.
If its seconds are left out, it is not read, and all comparisons with timestamps are refused. -/
theorem shaped_compares (text : String) (hascii : ∀ c ∈ text.toList, c.toNat < 128)
    (hshaped : isShaped text = true) :
    (∃ spelling : Spelling, spelling.text = text) ∧
    ∀ spelling : Spelling, spelling.text = text → spelling.Valid →
      (spelling.isComplete = true →
        ∃ t, read? text = some t ∧ spelling.Denotes t ∧ ComparesAs text t) ∧
      (spelling.isComplete = false → read? text = none ∧ RefusedOpposite text) := by
  refine ⟨exists_spelling_of_isShaped hascii hshaped, ?_⟩
  rintro spelling rfl hvalid
  constructor
  · intro hcomplete
    obtain ⟨t, hread, hdenotes⟩ := hvalid.read_complete hcomplete
    exact ⟨t, hread, hdenotes, .of_read hshaped hread⟩
  · intro hincomplete
    have hread : read? spelling.text = none := Spelling.read_incomplete hincomplete
    exact ⟨hread, .of_unread hshaped hread⟩

/-- The last night of February 2024, an hour behind universal time. -/
def lateSpelling (seconds? : Option Seconds) : Spelling where
  year := .ofDigits ['2', '0', '2', '4'] rfl
  month := .ofDigits ['0', '2'] rfl
  day := .ofDigits ['2', '9'] rfl
  clock? := some {
    spaced := false
    hours := .ofDigits ['2', '3'] rfl
    minutes := .ofDigits ['3', '0'] rfl
    seconds? := seconds?
    zone? := some (.offset true (.ofDigits ['0', '1'] rfl) (.ofDigits ['0', '0'] rfl)) }

/-- The last night of February is a valid spelling with any valid seconds. -/
theorem valid_lateSpelling {seconds? : Option Seconds}
    (h : ∀ seconds, seconds? = some seconds → seconds.Valid) : (lateSpelling seconds?).Valid := by
  have hmonth : 1 ≤ digitsValue ['0', '2'] ∧ digitsValue ['0', '2'] ≤ 12 := by decide
  have hday : 1 ≤ digitsValue ['2', '9'] ∧ digitsValue ['2', '9'] ≤
      Date.daysInMonth (digitsValue ['2', '0', '2', '4']) (digitsValue ['0', '2']) := by decide
  have htime : digitsValue ['2', '3'] < 24 ∧ digitsValue ['3', '0'] < 60 := by decide
  refine ⟨hmonth, hday, fun clock hclock => ?_⟩
  cases hclock
  refine ⟨htime.1, htime.2, h, fun zone hzone => ?_⟩
  cases hzone
  exact ⟨by decide, by decide⟩

/-- With its seconds the text is the first of March in universal time, and without them it cannot be
compared. -/
theorem shaped_compares_late :
    isShaped "2024-02-29T23:30:15.5-01:00" = true ∧
      ComparesAs "2024-02-29T23:30:15.5-01:00"
        ⟨Date.toNumber ⟨2024, 3, 1⟩, 30 * 60 + 15, 500000000⟩ ∧
      isShaped "2024-02-29T23:30-01:00" = true ∧ RefusedOpposite "2024-02-29T23:30-01:00" := by
  have hshaped : isShaped "2024-02-29T23:30:15.5-01:00" = true := by decide
  have hshort : isShaped "2024-02-29T23:30-01:00" = true := by decide
  refine ⟨hshaped, ?_, hshort, ?_⟩
  · have hvalid : (lateSpelling (some ⟨.ofDigits ['1', '5'] rfl,
        some ⟨0, .ofDigits ['5'] rfl⟩⟩)).Valid := by
      refine valid_lateSpelling fun seconds hseconds => ?_
      cases hseconds
      refine ⟨by decide, fun fraction hfraction => ?_⟩
      cases hfraction
      decide
    obtain ⟨-, hreads⟩ := shaped_compares _ (by simp) hshaped
    obtain ⟨t, -, ⟨hsecond, hseconds, hnano⟩, hcompares⟩ := (hreads _ rfl hvalid).1 rfl
    have hmoment : t.day * 86400 + t.second = Date.toNumber ⟨2024, 3, 1⟩ * 86400 + 1815 :=
      hseconds.trans (by decide)
    have hday : t.day = Date.toNumber ⟨2024, 3, 1⟩ := by omega
    have hrest : t.second = 30 * 60 + 15 := by omega
    have ht : t = ⟨Date.toNumber ⟨2024, 3, 1⟩, 30 * 60 + 15, 500000000⟩ := by
      cases t
      simp_all
      decide
    exact ht ▸ hcompares
  · obtain ⟨-, hreads⟩ := shaped_compares _ (by simp) hshort
    exact ((hreads (lateSpelling none) rfl (valid_lateSpelling nofun)).2 rfl).2

end DateTime

end TypedQuery
