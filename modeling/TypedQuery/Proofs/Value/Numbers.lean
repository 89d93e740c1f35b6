import Mathlib.Algebra.Order.Field.Rat
import Mathlib.Data.Rat.Cast.Order
import Mathlib.Order.Compare
import Mathlib.Tactic.FieldSimp
import Mathlib.Tactic.Positivity
import TypedQuery.Plan.Eval
import TypedQuery.Proofs.Value.Preservation

/-!
# Values as rational numbers

Integers and decimals stand for rational numbers. They compare as these numbers, whatever their
representations, and a conversion to a type that holds the numbers of the old one keeps the number.
-/

namespace TypedQuery

/-- Powers of ten are positive. -/
theorem powerOfTen_pos (digits : Nat) : 0 < powerOfTen digits :=
  Nat.pow_pos (by decide)

namespace Decimal

/-- The number that a decimal stands for. -/
def toRat (d : Decimal) : ℚ :=
  d.signed / powerOfTen d.scale

/-- A signed integer is the same number as a decimal. -/
theorem toRat_ofInt64 (n : Int64) : (ofInt64 n).toRat = n.toInt := by
  have hsigned : (ofInt64 n).signed = n.toInt := by
    change (if decide (n.toInt < 0) then -(n.toInt.natAbs : Int) else n.toInt.natAbs) = n.toInt
    by_cases hnegative : n.toInt < 0
    · rw [decide_eq_true hnegative, if_pos rfl]
      omega
    · rw [decide_eq_false hnegative, if_neg Bool.false_ne_true]
      omega
  have hscale : powerOfTen (ofInt64 n).scale = 1 := rfl
  unfold toRat
  rw [hsigned, hscale]
  simp

/-- An unsigned integer is the same number as a decimal. -/
theorem toRat_ofUInt64 (n : UInt64) : (ofUInt64 n).toRat = n.toNat := by
  have hsigned : (ofUInt64 n).signed = n.toNat := rfl
  have hscale : powerOfTen (ofUInt64 n).scale = 1 := rfl
  unfold toRat
  rw [hsigned, hscale]
  simp

end Decimal

/-- A map that keeps the order of numbers keeps how they compare. -/
theorem compares_map {α : Type} [LinearOrder α] {f : α → ℚ} (hf : StrictMono f) (m n : α) :
    (Ord.compare m n).Compares (f m) (f n) := by
  have h := cmp_compares m n
  rw [cmp_eq_compare] at h
  cases horder : Ord.compare m n with
  | lt =>
    rw [horder] at h
    exact hf h
  | eq =>
    rw [horder] at h
    exact congrArg f h
  | gt =>
    rw [horder] at h
    exact hf h

/-- Integers compare as rational numbers. -/
theorem compares_int (m n : Int) : (Ord.compare m n).Compares (m : ℚ) n :=
  compares_map Int.cast_strictMono m n

/-- Natural numbers compare as rational numbers. -/
theorem compares_nat (m n : Nat) : (Ord.compare m n).Compares (m : ℚ) n :=
  compares_map Nat.strictMono_cast m n

/-- The order of two decimals is that of their numbers. -/
theorem Decimal.compares (a b : Decimal) : (a.compare b).Compares a.toRat b.toRat := by
  have ha : (0 : ℚ) < powerOfTen a.scale := by exact_mod_cast powerOfTen_pos _
  have hb : (0 : ℚ) < powerOfTen b.scale := by exact_mod_cast powerOfTen_pos _
  have h := compares_int (a.signed * powerOfTen b.scale) (b.signed * powerOfTen a.scale)
  push_cast at h
  unfold Decimal.compare toRat
  cases horder : Ord.compare (a.signed * powerOfTen b.scale) (b.signed * powerOfTen a.scale) with
  | lt =>
    rw [horder] at h
    exact (div_lt_div_iff₀ ha hb).mpr h
  | eq =>
    rw [horder] at h
    exact (div_eq_div_iff ha.ne' hb.ne').mpr h
  | gt =>
    rw [horder] at h
    exact (div_lt_div_iff₀ hb ha).mpr h

namespace Value

/-- The number that an integer or a decimal stands for. -/
def number? : Value → Option ℚ
  | int n => some n.toInt
  | uint n => some n.toNat
  | decimal d => some d.toRat
  | _ => none

variable {a b value result : Value} {x y : ℚ} {members : Members} {source target : Ty}

/-- Integers and decimals compare as their numbers. -/
theorem compares_of_number? (ha : a.number? = some x) (hb : b.number? = some y) :
    ∃ order, Value.compare a b = some order ∧ order.Compares x y := by
  cases a with
  | int m =>
    cases ha
    cases b with
    | int n =>
      cases hb
      exact ⟨_, rfl, compares_int _ _⟩
    | uint n =>
      cases hb
      exact ⟨_, rfl, by simpa using compares_int m.toInt n.toNat⟩
    | decimal d =>
      cases hb
      exact ⟨_, rfl, by simpa [Decimal.toRat_ofInt64] using (Decimal.ofInt64 m).compares d⟩
    | _ => cases hb
  | uint m =>
    cases ha
    cases b with
    | int n =>
      cases hb
      exact ⟨_, rfl, by simpa using compares_int m.toNat n.toInt⟩
    | uint n =>
      cases hb
      exact ⟨_, rfl, compares_nat _ _⟩
    | decimal d =>
      cases hb
      exact ⟨_, rfl, by simpa [Decimal.toRat_ofUInt64] using (Decimal.ofUInt64 m).compares d⟩
    | _ => cases hb
  | decimal d =>
    cases ha
    cases b with
    | int n =>
      cases hb
      exact ⟨_, rfl, by simpa [Decimal.toRat_ofInt64] using d.compares (.ofInt64 n)⟩
    | uint n =>
      cases hb
      exact ⟨_, rfl, by simpa [Decimal.toRat_ofUInt64] using d.compares (.ofUInt64 n)⟩
    | decimal e =>
      cases hb
      exact ⟨_, rfl, d.compares e⟩
    | _ => cases hb
  | _ => cases ha

/-- A value of an integer type is `null` or an integer in the range of its kind. -/
theorem Conforms.integer {kind : IntKind} (h : value.Conforms members source)
    (hsource : source.core = .int kind) :
    value = .null ∨ ∃ n : Int, kind.fits n = true ∧ value.toInteger? = some n ∧
      value.integer? = some n ∧ value.number? = some (n : ℚ) := by
  cases h with
  | null => exact .inl rfl
  | int hcore hfits =>
    rw [hsource] at hcore
    cases hcore
    exact .inr ⟨_, hfits, rfl, rfl, rfl⟩
  | uint hcore hfits =>
    rw [hsource] at hcore
    cases hcore
    exact .inr ⟨_, hfits, rfl, rfl, rfl⟩
  | any hcore | boolean hcore | float hcore | decimal hcore | text hcore | guid hcore
  | dateTime hcore | enum hcore | list hcore _ | object hcore _ | record hcore _ _ =>
    rw [hsource] at hcore
    cases hcore

/-- A value of a decimal type is `null` or a decimal. -/
theorem Conforms.exactDecimal (h : value.Conforms members source)
    (hsource : source.core = .decimal) : value = .null ∨ ∃ d, value = .decimal d := by
  cases h with
  | null => exact .inl rfl
  | decimal hcore => exact .inr ⟨_, rfl⟩
  | any hcore | boolean hcore | int hcore _ | uint hcore _ | float hcore | text hcore | guid hcore
  | dateTime hcore | enum hcore | list hcore _ | object hcore _ | record hcore _ _ =>
    rw [hsource] at hcore
    cases hcore

/-- The decimal of an integer is the integer. -/
theorem toDecimal?_of_integer {n : Int} (h : value.integer? = some n)
    (hnumber : value.number? = some (n : ℚ)) :
    ∃ d, value.toDecimal? = some d ∧ d.toRat = n := by
  cases value with
  | int m =>
    cases h
    exact ⟨_, rfl, Decimal.toRat_ofInt64 m⟩
  | uint m =>
    cases h
    exact ⟨_, rfl, by simpa using Decimal.toRat_ofUInt64 m⟩
  | enum _ _ _ => cases hnumber
  | _ => cases h

/-- The number of an integer is this integer. -/
theorem eq_of_integer? {n : Int} (h : value.integer? = some n) (hnumber : value.number? = some x) :
    x = n := by
  cases value with
  | int m | uint m =>
    cases h
    cases hnumber
    rfl
  | enum _ _ _ => cases hnumber
  | _ => cases h

/-- Every integer in the range of a kind is a value of that kind. -/
theorem exists_ofInt? {n : Int} {kind : IntKind} (h : kind.fits n = true) :
    ∃ result, ofInt? n kind = some result ∧ result.number? = some (n : ℚ) := by
  unfold ofInt?
  rw [h, Bool.not_true, if_neg Bool.false_ne_true]
  by_cases hsigned : IntKind.fits .i64 n = true
  · rw [if_pos hsigned]
    refine ⟨_, rfl, ?_⟩
    rw [number?, IntKind.toInt_ofInt hsigned]
  · have hunsigned : IntKind.fits .u64 n = true := by
      rw [IntKind.fits_iff] at h hsigned ⊢
      cases kind <;>
        simp only [IntKind.least, IntKind.greatest, powerOfTwo, Nat.pow_eq] at h hsigned ⊢ <;>
        omega
    have hrange : (0 : Int) ≤ n ∧ n ≤ 2 ^ 64 - 1 := IntKind.fits_iff.mp hunsigned
    have hnat : (UInt64.ofNat n.toNat).toNat = n.toNat := by
      rw [UInt64.toNat_ofNat']
      exact Nat.mod_eq_of_lt (by omega)
    rw [if_neg hsigned, if_pos hunsigned]
    refine ⟨_, rfl, ?_⟩
    rw [number?, hnat]
    exact congrArg some (by exact_mod_cast Int.toNat_of_nonneg hrange.1)

/-- An integer of a kind has the number that it is made of. -/
theorem number?_of_ofInt? {n : Int} {kind : IntKind} (h : ofInt? n kind = some result) :
    result.number? = some (n : ℚ) := by
  obtain ⟨-, ⟨m, rfl, rfl⟩ | ⟨m, -, rfl, rfl⟩⟩ := ofInt?_eq_some.mp h
  · rfl
  · exact congrArg some (Int.cast_natCast m.toNat).symm

end Value

/-- Every number of a type is a number of another one. -/
inductive Ty.Holds (outer inner : Ty) : Prop
  | integers {a b : IntKind} (houter : outer.core = .int a) (hinner : inner.core = .int b)
      (hcontains : a.contains b = true)
  | integersAsDecimals {kind : IntKind} (houter : outer.core = .decimal)
      (hinner : inner.core = .int kind)
  | decimals (houter : outer.core = .decimal) (hinner : inner.core = .decimal)

/-- Only the types without `nullable` matter. -/
theorem Ty.Holds.of_core_eq {outer other inner : Ty} (hcore : other.core = outer.core)
    (h : outer.Holds inner) : other.Holds inner := by
  cases h with
  | integers houter hinner hcontains => exact .integers (hcore.trans houter) hinner hcontains
  | integersAsDecimals houter hinner => exact .integersAsDecimals (hcore.trans houter) hinner
  | decimals houter hinner => exact .decimals (hcore.trans houter) hinner

/-- What is in the range of a kind is in that of every kind that contains it. -/
theorem IntKind.fits_of_contains {outer inner : IntKind} {n : Int}
    (h : outer.contains inner = true) (hfits : inner.fits n = true) : outer.fits n = true := by
  unfold IntKind.contains at h
  rw [Bool.and_eq_true, decide_eq_true_iff, decide_eq_true_iff] at h
  rw [fits_iff] at hfits ⊢
  omega

namespace Value

variable {value : Value} {members : Members} {source target : Ty}

/-- Conversion to a type that holds the numbers of another one keeps the number of a value. -/
theorem Conforms.convert_number? (h : value.Conforms members source)
    (hholds : target.Holds source) :
    ∃ result, value.convert target = .ok result ∧ result.Conforms members target ∧
      result.number? = value.number? := by
  by_cases hnull : value = .null
  · rw [hnull]
    exact ⟨_, rfl, .null, rfl⟩
  have hsome : value.convert target = value.convertSome target.core := by
    rw [convertSome_core]
    cases value with
    | null => exact absurd rfl hnull
    | _ => rfl
  rw [hsome]
  cases hholds with
  | @integers outer inner houter hinner hcontains =>
    obtain ⟨n, hfits, hinteger, -, hnumber⟩ := (h.integer hinner).resolve_left hnull
    obtain ⟨result, hresult, hsame⟩ :=
      exists_ofInt? (IntKind.fits_of_contains hcontains hfits)
    refine ⟨result, ?_, (conforms_of_ofInt? hresult houter).1, hsame.trans hnumber.symm⟩
    rw [houter]
    simp only [convertSome, hinteger, hresult]
  | integersAsDecimals houter hinner =>
    obtain ⟨n, -, -, hinteger, hnumber⟩ := (h.integer hinner).resolve_left hnull
    obtain ⟨d, hdecimal, hsame⟩ := toDecimal?_of_integer hinteger hnumber
    refine ⟨.decimal d, ?_, .decimal houter, ?_⟩
    · rw [houter]
      simp only [convertSome, hdecimal, Option.map_some, convertSome.orFault]
    · rw [hnumber, number?, hsame]
  | decimals houter hinner =>
    obtain ⟨d, rfl⟩ := (h.exactDecimal hinner).resolve_left hnull
    refine ⟨.decimal d, ?_, .decimal houter, rfl⟩
    rw [houter]
    rfl

/-- A value of a type of integers or decimals is `null` or has a number. -/
theorem Conforms.null_or_number? (h : value.Conforms members source)
    (hsource : source.Holds source) :
    value = .null ∨ ∃ x, value.number? = some x := by
  cases hsource with
  | integers houter hinner hcontains =>
    rcases h.integer hinner with hnull | ⟨n, -, -, -, hnumber⟩
    · exact .inl hnull
    · exact .inr ⟨_, hnumber⟩
  | integersAsDecimals houter hinner =>
    rw [houter] at hinner
    cases hinner
  | decimals houter hinner =>
    rcases h.exactDecimal hinner with hnull | ⟨d, rfl⟩
    · exact .inl hnull
    · exact .inr ⟨_, rfl⟩

end Value

namespace Operator

variable {op : Operator} {left right : Value} {a b : ℚ} {ty : Ty}

/-- A comparison holds of two numbers, where `none` stands for `null`: nothing but itself equals
`null`, and it has no order. -/
def Compares (op : Operator) (x y : Option ℚ) : Prop :=
  match op with
  | equal => x = y
  | notEqual => x ≠ y
  | less => ∃ a b, x = some a ∧ y = some b ∧ a < b
  | lessEqual => ∃ a b, x = some a ∧ y = some b ∧ a ≤ b
  | greater => ∃ a b, x = some a ∧ y = some b ∧ a > b
  | greaterEqual => ∃ a b, x = some a ∧ y = some b ∧ a ≥ b
  | _ => False

/-- A relational operator holds of an order of two numbers exactly if it does of the numbers. -/
theorem holds_iff_compares {order : Ordering} (horder : order.Compares a b)
    (hop : op.isRelational = true) :
    op.holds order = true ↔ op.Compares (some a) (some b) := by
  have hlt : order = .lt ↔ a < b := horder.eq_lt
  have hgt : order = .gt ↔ b < a := horder.eq_gt
  cases op with
  | less => simp [holds, Compares, hlt]
  | lessEqual => simp [holds, Compares, hgt]
  | greater => simp [holds, Compares, hgt]
  | greaterEqual => simp [holds, Compares, hlt]
  | _ => cases hop

/-- A comparison by order holds of numbers only. -/
theorem Compares.exists_numbers {x y : Option ℚ} (hop : op.isRelational = true)
    (h : op.Compares x y) : ∃ a b, x = some a ∧ y = some b := by
  cases op with
  | less | lessEqual | greater | greaterEqual =>
    obtain ⟨a, b, hx, hy, -⟩ := h
    exact ⟨a, b, hx, hy⟩
  | _ => cases hop

/-- Values are the same if they have the same number or are both `null`. -/
theorem same_iff_number? (hleft : left = .null ∨ ∃ x, left.number? = some x)
    (hright : right = .null ∨ ∃ y, right.number? = some y) :
    Value.same left right = true ↔ left.number? = right.number? := by
  have hcompare : Value.same left right = decide (Value.compare left right = some .eq) := by
    unfold Value.same
    split
    · simp [Value.number?] at hleft
    · simp [Value.number?] at hleft
    · simp [Value.number?] at hleft
    · simp [Value.number?] at hleft
    · rfl
  rw [hcompare, decide_eq_true_iff]
  rcases hleft with rfl | ⟨x, hx⟩
  · rcases hright with rfl | ⟨y, hy⟩
    · simp [Value.compare, Value.number?]
    · cases right <;> simp [Value.compare, Value.number?] at hy ⊢
  · rcases hright with rfl | ⟨y, hy⟩
    · cases left <;> simp [Value.compare, Value.number?] at hx ⊢
    · obtain ⟨order, horder, hcompares⟩ := Value.compares_of_number? hx hy
      rw [horder, hx, hy, Option.some_inj, Option.some_inj]
      exact hcompares.eq_eq

/-- A comparison of integers and decimals, or `null`, is that of their numbers. -/
theorem apply_iff_compares (hop : op.isComparison = true)
    (hleft : left = .null ∨ ∃ x, left.number? = some x)
    (hright : right = .null ∨ ∃ y, right.number? = some y) :
    ∃ result, op.apply ty left right = .ok (.boolean result) ∧
      (result = true ↔ op.Compares left.number? right.number?) := by
  have hsame := same_iff_number? hleft hright
  unfold isComparison at hop
  unfold Operator.apply
  cases hequality : op.isEquality with
  | true =>
    refine ⟨_, rfl, ?_⟩
    cases op with
    | equal => simp [Compares, ← hsame]
    | notEqual => simp [Compares, ← hsame]
    | _ => cases hequality
  | false =>
    have hrelational : op.isRelational = true := by rwa [hequality, Bool.false_or] at hop
    rw [if_neg Bool.false_ne_true, if_pos hrelational]
    rcases hleft with rfl | ⟨x, hx⟩
    · refine ⟨false, rfl, nofun, fun h => ?_⟩
      obtain ⟨a, b, hnone, -⟩ := h.exists_numbers hrelational
      cases hnone
    · have hsome : left.isNull = false := by cases left <;> first | rfl | cases hx
      rcases hright with rfl | ⟨y, hy⟩
      · refine ⟨false, by rw [hsome]; rfl, nofun, fun h => ?_⟩
        obtain ⟨a, b, -, hnone⟩ := h.exists_numbers hrelational
        cases hnone
      · have hother : right.isNull = false := by cases right <;> first | rfl | cases hy
        obtain ⟨order, horder, hcompares⟩ := Value.compares_of_number? hx hy
        refine ⟨op.holds order, ?_, ?_⟩
        · rw [hsome, hother, horder]
          rfl
        · rw [hx, hy]
          exact holds_iff_compares hcompares hrelational

end Operator

end TypedQuery
