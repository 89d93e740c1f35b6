import TypedQuery.Proofs.Value.Numbers

/-!
# Exact arithmetic on integers

The result of an operator on two integers is stated without the algorithm that finds it. An operator
yields one number at most, and exactly one unless it divides by zero. What is computed at a kind is
this number if it is in range, and a failure that says why there is none otherwise.
-/

namespace TypedQuery

/-- Truncated division leaves the one rest that is smaller than the divisor and has the sign of the
dividend. -/
theorem eq_tdiv_tmod_iff {a b quotient rest : Int} (hb : b ≠ 0) :
    (a = b * quotient + rest ∧ rest.natAbs < b.natAbs ∧ 0 ≤ a * rest) ↔
      quotient = a.tdiv b ∧ rest = a.tmod b := by
  have hbound : (a.tmod b).natAbs < b.natAbs := by
    rw [Int.natAbs_tmod]
    exact Nat.mod_lt _ (Int.natAbs_pos.mpr hb)
  constructor
  · rintro ⟨hsum, hsmall, hsign⟩
    rcases lt_trichotomy a 0 with ha | rfl | ha
    · have hrest : rest ≤ 0 := nonpos_of_mul_nonneg_right hsign ha
      obtain ⟨hquotient, hmod⟩ :=
        (Int.tdiv_tmod_unique' ha.le hb).mpr ⟨by rw [hsum, add_comm], by omega, hrest⟩
      exact ⟨hquotient.symm, hmod.symm⟩
    · have hdvd : b ∣ rest := ⟨-quotient, by rw [mul_neg]; omega⟩
      obtain rfl := Int.eq_zero_of_dvd_of_natAbs_lt_natAbs hdvd hsmall
      have hquotient := (mul_eq_zero.mp (by omega : b * quotient = 0)).resolve_left hb
      exact ⟨by rw [hquotient, Int.zero_tdiv], by rw [Int.zero_tmod]⟩
    · have hrest : 0 ≤ rest := nonneg_of_mul_nonneg_right hsign ha
      obtain ⟨hquotient, hmod⟩ :=
        (Int.tdiv_tmod_unique ha.le hb).mpr ⟨by rw [hsum, add_comm], hrest, by omega⟩
      exact ⟨hquotient.symm, hmod.symm⟩
  · rintro ⟨rfl, rfl⟩
    refine ⟨(Int.mul_tdiv_add_tmod a b).symm, hbound, ?_⟩
    rcases le_total 0 a with ha | ha
    · exact mul_nonneg ha (Int.tmod_nonneg b ha)
    · have hrest : 0 ≤ -(a.tmod b) := by
        rw [← Int.neg_tmod]
        exact Int.tmod_nonneg b (by omega)
      exact mul_nonneg_of_nonpos_of_nonpos ha (by omega)

namespace Operator

variable {op : Operator} {a b : Int}

/-- The operator divides. -/
def isDivision : Operator → Bool
  | divide | modulo => true
  | _ => false

/-- The result of an operator on two integers is `c`. A division leaves a rest that is smaller than
the divisor and has the sign of the dividend, and this rest is the remainder. -/
def Yields (op : Operator) (a b c : Int) : Prop :=
  match op with
  | add => c = a + b
  | subtract => c + b = a
  | multiply => c = a * b
  | divide => ∃ rest, a = b * c + rest ∧ rest.natAbs < b.natAbs ∧ 0 ≤ a * rest
  | modulo => ∃ quotient, a = b * quotient + c ∧ c.natAbs < b.natAbs ∧ 0 ≤ a * c
  | power => 0 ≤ b ∧ c = a ^ b.toNat
  | _ => False

/-- A division yields the quotient that is cut towards zero. -/
theorem yields_divide_iff {c : Int} (hb : b ≠ 0) : divide.Yields a b c ↔ c = a.tdiv b := by
  constructor
  · rintro ⟨rest, h⟩
    exact ((eq_tdiv_tmod_iff hb).mp h).1
  · rintro rfl
    exact ⟨a.tmod b, (eq_tdiv_tmod_iff hb).mpr ⟨rfl, rfl⟩⟩

/-- A remainder has the sign of the dividend. -/
theorem yields_modulo_iff {c : Int} (hb : b ≠ 0) : modulo.Yields a b c ↔ c = a.tmod b := by
  constructor
  · rintro ⟨quotient, h⟩
    exact ((eq_tdiv_tmod_iff hb).mp h).2
  · rintro rfl
    exact ⟨a.tdiv b, (eq_tdiv_tmod_iff hb).mpr ⟨rfl, rfl⟩⟩

/-- Apart from powers, an operator that does not divide by zero yields one number, and this number
is what is computed at a kind. -/
theorem exists_yields (op : Operator) (a : Int) (kind : IntKind) (hop : op.isArithmetic = true)
    (hpower : op ≠ .power) (hzero : ¬ (op.isDivision = true ∧ b = 0)) :
    ∃ c, (∀ other, op.Yields a b other ↔ other = c) ∧
      Value.integerOperation op a b kind =
        match Value.ofInt? c kind with
        | some value => .ok value
        | none => .error (.overflow (.integers a op b kind)) := by
  cases op with
  | add => exact ⟨a + b, fun _ => .rfl, rfl⟩
  | subtract => exact ⟨a - b, fun _ => eq_sub_iff_add_eq.symm, rfl⟩
  | multiply => exact ⟨a * b, fun _ => .rfl, rfl⟩
  | divide =>
    have hb : b ≠ 0 := fun h => hzero ⟨rfl, h⟩
    exact ⟨a.tdiv b, fun _ => yields_divide_iff hb, if_neg hb⟩
  | modulo =>
    have hb : b ≠ 0 := fun h => hzero ⟨rfl, h⟩
    exact ⟨a.tmod b, fun _ => yields_modulo_iff hb, if_neg hb⟩
  | power => exact absurd rfl hpower
  | _ => cases hop

end Operator

namespace Value

variable {op : Operator} {kind : IntKind} {value result : Value} {n : Int} {members : Members}
  {source target : Ty} {outcome left right : Except RunFault Value}

/-- The value is an integer. -/
def IsInt (value : Value) (n : Int) : Prop :=
  value.isInteger = true ∧ value.integer? = some n

/-- A value is one integer at most. -/
theorem IsInt.unique {m : Int} (h : value.IsInt m) (hn : value.IsInt n) : m = n :=
  Option.some.inj (h.2.symm.trans hn.2)

/-- An integer is not `null`. -/
theorem IsInt.ne_null (h : value.IsInt n) : value ≠ .null := by
  rintro rfl
  cases h.1

/-- An integer is taken for the integer that it is. -/
theorem IsInt.toInteger? (h : value.IsInt n) : value.toInteger? = some n := by
  obtain ⟨hinteger, hn⟩ := h
  cases value <;> cases hinteger <;> exact hn

/-- A value of an integer type is `null` or an integer in the range of its kind. -/
theorem Conforms.null_or_isInt (h : value.Conforms members source)
    (hsource : source.core = .int kind) :
    value = .null ∨ ∃ n, value.IsInt n ∧ kind.fits n = true := by
  rcases h.null_or_holds hsource with hnull | hinteger
  · exact .inl hnull
  · rcases h.integer hsource with hnull | ⟨n, hfits, -, hn, -⟩
    · exact .inl hnull
    · exact .inr ⟨n, ⟨hinteger, hn⟩, hfits⟩

/-- An integer that conforms to a type is in its range. -/
theorem Conforms.fits_of_isInt (h : value.Conforms members source)
    (hsource : source.core = .int kind) (hn : value.IsInt n) : kind.fits n = true := by
  rcases h.null_or_isInt hsource with rfl | ⟨m, hm, hfits⟩
  · exact absurd rfl hn.ne_null
  · exact hn.unique hm ▸ hfits

/-- There is an integer of a kind exactly if the number is in range. -/
theorem ofInt?_eq_none_iff : ofInt? n kind = none ↔ kind.fits n = false := by
  constructor
  · intro h
    by_contra hfits
    obtain ⟨result, hresult, -⟩ := exists_ofInt? (Bool.eq_true_of_not_eq_false hfits)
    cases h.symm.trans hresult
  · intro h
    unfold ofInt?
    rw [h]
    rfl

/-- What becomes an integer of a kind is in its range. -/
theorem fits_of_ofInt? (h : ofInt? n kind = some result) : kind.fits n = true :=
  (ofInt?_eq_some.mp h).1

/-- What becomes an integer of a kind is this integer. -/
theorem isInt_of_ofInt? (h : ofInt? n kind = some result) : result.IsInt n := by
  obtain ⟨-, ⟨m, rfl, rfl⟩ | ⟨m, -, rfl, rfl⟩⟩ := ofInt?_eq_some.mp h
  · exact ⟨rfl, rfl⟩
  · exact ⟨rfl, rfl⟩

/-- An integer converted to a kind is the integer of that kind, if it is in range. -/
theorem IsInt.convert (h : value.IsInt n) (htarget : target.core = .int kind) :
    value.convert target =
      match ofInt? n kind with
      | some result => .ok result
      | none => .error (.overflow (.number n kind)) := by
  have hsome : value.convert target = value.convertSome target := by
    cases value with
    | null => exact absurd rfl h.ne_null
    | _ => rfl
  rw [hsome, ← convertSome_core, htarget]
  unfold convertSome
  split
  · rename_i hnone
    cases hnone.symm.trans h.toInteger?
  · rename_i m hm
    cases hm.symm.trans h.toInteger?
    rfl

/-- Arithmetic on integers is that of their numbers, at the kind of the node. -/
theorem arithmetic_of_isInt {a b : Value} {m : Int} {ty : Ty} (ha : a.IsInt m) (hb : b.IsInt n)
    (hty : ty.intKind? = some kind) :
    arithmetic op a b ty = integerOperation op m n kind := by
  obtain ⟨hinteger, hm⟩ := ha
  obtain ⟨hinteger', hn⟩ := hb
  cases a <;> cases hinteger <;> cases hm <;> cases b <;> cases hinteger' <;> cases hn <;>
    simp only [arithmetic, operate, isInteger, integer?, Bool.and_self, if_true, hty,
      Option.getD_some]

/-- What an integer, or `null`, comes to at a kind: itself if it is in range. -/
inductive Narrowed (kind : IntKind) : Value → Except RunFault Value → Prop
  | null : Narrowed kind .null (.ok .null)
  | inRange {value result : Value} {n : Int} (hvalue : value.IsInt n)
      (hfits : kind.fits n = true) (hresult : result.IsInt n) : Narrowed kind value (.ok result)
  | outOfRange {value : Value} {n : Int} (hvalue : value.IsInt n)
      (hfits : kind.fits n = false) : Narrowed kind value (.error (.overflow (.number n kind)))

/-- An integer in range stays itself. -/
theorem Narrowed.exists_isInt (h : Narrowed kind value outcome) (hn : value.IsInt n)
    (hfits : kind.fits n = true) : ∃ result, outcome = .ok result ∧ result.IsInt n := by
  cases h with
  | null => exact absurd rfl hn.ne_null
  | inRange hm _ hresult => exact ⟨_, rfl, hm.unique hn ▸ hresult⟩
  | outOfRange hm hout =>
    rw [hm.unique hn, hfits] at hout
    cases hout

/-- An integer that is made one of a kind is in range. -/
theorem narrowed_ofInt? (hn : value.IsInt n) (h : ofInt? n kind = some result) :
    Narrowed kind value (.ok result) :=
  .inRange hn (fits_of_ofInt? h) (isInt_of_ofInt? h)

/-- A value of the kind stays as it is. -/
theorem Conforms.narrowed (h : value.Conforms members source) (hsource : source.core = .int kind) :
    Narrowed kind value (.ok value) := by
  rcases h.null_or_isInt hsource with rfl | ⟨n, hn, hfits⟩
  · exact .null
  · exact .inRange hn hfits hn

/-- A conversion brings a value of any kind to another one, if it is in range. -/
theorem Conforms.narrowed_convert {other : IntKind} (h : value.Conforms members source)
    (hsource : source.core = .int other) (htarget : target.core = .int kind) :
    Narrowed kind value (value.convert target) := by
  rcases h.null_or_isInt hsource with rfl | ⟨n, hn, -⟩
  · exact .null
  · rw [hn.convert htarget]
    cases hresult : ofInt? n kind with
    | some result => exact narrowed_ofInt? hn hresult
    | none => exact .outOfRange hn (ofInt?_eq_none_iff.mp hresult)

/-- A value that is at the kind already stays there under a conversion to it. -/
theorem Narrowed.convert (h : Narrowed kind value outcome) (htarget : target.core = .int kind) :
    Narrowed kind value (outcome >>= fun result => result.convert target) := by
  cases h with
  | null => exact .null
  | outOfRange hvalue hfits => exact .outOfRange hvalue hfits
  | @inRange _ result n hvalue hfits hresult =>
    obtain ⟨converted, hconverted, -⟩ := exists_ofInt? hfits
    have hconvert : result.convert target = .ok converted := by
      rw [hresult.convert htarget, hconverted]
    change Narrowed kind value (result.convert target)
    rw [hconvert]
    exact .inRange hvalue hfits (isInt_of_ofInt? hconverted)

/-- What an operator on two integers, or `null`, comes to at the kind of the left one. -/
inductive Calculated (op : Operator) (kind : IntKind) :
    Value → Value → Except RunFault Value → Prop
  | unfit {a b : Value} {n : Int} (hb : b.IsInt n) (hfits : kind.fits n = false) :
      Calculated op kind a b (.error (.overflow (.number n kind)))
  | null {a b : Value} (hnull : a = .null ∨ b = .null)
      (hfits : ∀ n, b.IsInt n → kind.fits n = true) : Calculated op kind a b (.ok .null)
  | byZero {a b : Value} {m : Int} (ha : a.IsInt m) (hb : b.IsInt 0)
      (hop : op.isDivision = true) : Calculated op kind a b (.error .divisionByZero)
  | exact {a b result : Value} {m n c : Int} (ha : a.IsInt m) (hb : b.IsInt n)
      (hright : kind.fits n = true) (hyields : ∀ other, op.Yields m n other ↔ other = c)
      (hfits : kind.fits c = true) (hresult : result.IsInt c) :
      Calculated op kind a b (.ok result)
  | overflow {a b : Value} {m n c : Int} (ha : a.IsInt m) (hb : b.IsInt n)
      (hright : kind.fits n = true) (hyields : ∀ other, op.Yields m n other ↔ other = c)
      (hfits : kind.fits c = false) :
      Calculated op kind a b (.error (.overflow (.integers m op n kind)))

/-- Integers in range are calculated with exactly. -/
theorem calculated_of_isInt {a b x y : Value} {m : Int} {ty : Ty} (hop : op.isArithmetic = true)
    (hpower : op ≠ .power) (hty : ty.intKind? = some kind) (ha : a.IsInt m) (hb : b.IsInt n)
    (hfits : kind.fits n = true) (hx : x.IsInt m) (hy : y.IsInt n) :
    Calculated op kind a b (arithmetic op x y ty) := by
  rw [arithmetic_of_isInt hx hy hty]
  by_cases hzero : op.isDivision = true ∧ n = 0
  · obtain ⟨hdivision, rfl⟩ := hzero
    have hfault : integerOperation op m 0 kind = .error .divisionByZero := by
      cases op <;> first | rfl | cases hdivision
    rw [hfault]
    exact .byZero ha hb hdivision
  · obtain ⟨c, hyields, hcomputed⟩ := op.exists_yields m kind hop hpower hzero
    rw [hcomputed]
    cases hresult : ofInt? c kind with
    | some result =>
      exact .exact ha hb hfits hyields (fits_of_ofInt? hresult) (isInt_of_ofInt? hresult)
    | none => exact .overflow ha hb hfits hyields (ofInt?_eq_none_iff.mp hresult)

/-- Operands that were brought to a kind are calculated with at that kind. The left one has to be of
the kind before. -/
theorem Narrowed.calculated {a b : Value} {ty : Ty} (hop : op.isArithmetic = true)
    (hpower : op ≠ .power) (hty : ty.intKind? = some kind)
    (hfits : ∀ m, a.IsInt m → kind.fits m = true) (ha : Narrowed kind a left)
    (hb : Narrowed kind b right) :
    Calculated op kind a b (left >>= fun x => right >>= fun y => arithmetic op x y ty) := by
  have hnull : ∀ x : Value, arithmetic op x .null ty = .ok .null := by
    intro x
    cases x <;> rfl
  cases ha with
  | outOfRange hm hout =>
    rw [hfits _ hm] at hout
    cases hout
  | null =>
    cases hb with
    | null => exact .null (.inl rfl) fun n hn => absurd rfl hn.ne_null
    | inRange hn hright _ => exact .null (.inl rfl) fun other hother => hother.unique hn ▸ hright
    | outOfRange hn hout => exact .unfit hn hout
  | inRange hm _ hx =>
    cases hb with
    | null =>
      change Calculated op kind _ _ (arithmetic op _ .null ty)
      rw [hnull]
      exact .null (.inr rfl) fun n hn => absurd rfl hn.ne_null
    | inRange hn hright hy => exact calculated_of_isInt hop hpower hty hm hn hright hx hy
    | outOfRange hn hout => exact .unfit hn hout

end Value

end TypedQuery

/-!
### Powers of integers

A power with an exponent below 2³² is the exact one if that is in range. From 128 on only the powers
of 0, 1 and -1 are, and these are known without multiplying. A larger exponent is refused whatever
the base is, and a negative one leaves the integers: the power is one of decimals.
-/

namespace TypedQuery.Value

variable {kind : IntKind} {m n : Int} {exponent : Nat}

/-- The numbers of all kinds have at most 64 bits. -/
theorem natAbs_lt_of_fits (h : kind.fits n = true) : n.natAbs < 2 ^ 64 := by
  rw [IntKind.fits_iff] at h
  cases kind <;> simp only [IntKind.least, IntKind.greatest, powerOfTwo, Nat.pow_eq] at h <;> omega

/-- A base other than 0, 1 and -1 has no large powers in range. -/
theorem fits_pow_eq_false (hbase : 2 ≤ m.natAbs) (hexponent : 128 ≤ exponent) :
    kind.fits (m ^ exponent) = false := by
  by_contra hfits
  have hsmall := natAbs_lt_of_fits (Bool.eq_true_of_not_eq_false hfits)
  have hlarge : 2 ^ 128 ≤ m.natAbs ^ exponent :=
    (Nat.pow_le_pow_right (by omega) hexponent).trans (Nat.pow_le_pow_left hbase exponent)
  rw [Int.natAbs_pow] at hsmall
  exact absurd (hlarge.trans_lt hsmall) (by decide)

/-- Below 2³² the exact power is found, if it is in range. -/
theorem bind_integerPower? (hexponent : exponent < 2 ^ 32) :
    ((integerPower? m exponent).bind fun power => ofInt? power kind) =
      ofInt? (m ^ exponent) kind := by
  unfold integerPower?
  by_cases hshort : exponent < 128
  · rw [if_pos hshort]
    rfl
  · have hlimit : ¬ powerOfTwo 32 ≤ exponent := Nat.not_le.mpr hexponent
    rw [if_neg hshort, if_neg hlimit]
    by_cases hone : m = 0 ∨ m = 1
    · have hpower : m ^ exponent = m := by
        rcases hone with rfl | rfl
        · exact zero_pow (by omega)
        · exact one_pow exponent
      rw [if_pos (by simpa using hone), hpower]
      rfl
    · rw [if_neg (by simpa using hone)]
      by_cases hminus : m = -1
      · subst hminus
        rw [if_pos rfl]
        split
        · rename_i heven
          rw [(Nat.even_iff.mpr heven).neg_one_pow]
          rfl
        · rename_i hodd
          rw [(Nat.odd_iff.mpr (by omega)).neg_one_pow]
          rfl
      · rw [if_neg hminus]
        exact (ofInt?_eq_none_iff.mpr (fits_pow_eq_false (by omega) (by omega))).symm

/-- From 2³² on no power is found. -/
theorem integerPower?_of_limit (hexponent : 2 ^ 32 ≤ exponent) :
    integerPower? m exponent = none := by
  have hlong : ¬ exponent < 128 := by omega
  unfold integerPower?
  rw [if_neg hlong]
  exact if_pos hexponent

/-- An integer of 64 bits is a decimal. -/
theorem exists_decimal_of_fits (h : kind.fits n = true) : ∃ d, Decimal.ofInt? n = some d := by
  have hsmall := natAbs_lt_of_fits h
  have hlimit := Decimal.mantissa_limit_eq
  unfold Decimal.ofInt? Decimal.ofParts?
  rw [dif_pos ⟨by omega, by omega⟩]
  exact ⟨_, rfl⟩

/-- What a power of two integers comes to at a kind. -/
inductive Powered (kind : IntKind) (m n : Int) : Except RunFault Value → Prop
  | exact {exponent : Nat} {result : Value} (hn : n = exponent) (hlimit : exponent < 2 ^ 32)
      (hfits : kind.fits (m ^ exponent) = true) (hresult : result.IsInt (m ^ exponent)) :
      Powered kind m n (.ok result)
  | overflow {exponent : Nat} (hn : n = exponent)
      (h : 2 ^ 32 ≤ exponent ∨ kind.fits (m ^ exponent) = false) :
      Powered kind m n (.error (.overflow (.integers m .power n kind)))
  | fraction {x y d : Decimal} (hn : n < 0) (hx : Decimal.ofInt? m = some x)
      (hy : Decimal.ofInt? n = some y) (hpower : x.pow? y = some d) :
      Powered kind m n (.ok (.decimal d.normalize))
  | noFraction {x y : Decimal} (hn : n < 0) (hx : Decimal.ofInt? m = some x)
      (hy : Decimal.ofInt? n = some y) (hpower : x.pow? y = none) :
      Powered kind m n (.error (.overflow (.decimals x .power y)))

/-- A power of two integers of a kind. -/
theorem powered_integerPower (hm : kind.fits m = true) (hn : kind.fits n = true) :
    Powered kind m n (integerPower m n kind) := by
  unfold integerPower
  split
  · rename_i hnegative
    obtain ⟨x, hx⟩ := exists_decimal_of_fits hm
    obtain ⟨y, hy⟩ := exists_decimal_of_fits hn
    rw [hx, hy]
    unfold decimalOperation
    dsimp only
    cases hpower : x.pow? y with
    | some d => exact .fraction hnegative hx hy hpower
    | none => exact .noFraction hnegative hx hy hpower
  · rename_i hnegative
    obtain ⟨exponent, rfl⟩ := Int.eq_ofNat_of_zero_le (Int.not_lt.mp hnegative)
    rw [Int.toNat_natCast]
    by_cases hlimit : exponent < 2 ^ 32
    · rw [bind_integerPower? hlimit]
      cases hresult : ofInt? (m ^ exponent) kind with
      | some result =>
        exact .exact rfl hlimit (fits_of_ofInt? hresult) (isInt_of_ofInt? hresult)
      | none => exact .overflow rfl (.inr (ofInt?_eq_none_iff.mp hresult))
    · rw [integerPower?_of_limit (Nat.not_lt.mp hlimit)]
      exact .overflow rfl (.inl (Nat.not_lt.mp hlimit))

end TypedQuery.Value
