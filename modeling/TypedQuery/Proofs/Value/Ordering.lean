import Mathlib.Data.Prod.Lex
import Mathlib.Data.String.Basic
import Mathlib.Order.WithBot
import TypedQuery.Proofs.Value.Kinds
import TypedQuery.Proofs.Value.Numbers

/-!
# The order of values

Values of one scale compare as places in a linear order do, with `null` below all of them. The
scales are those of Booleans, of integers and decimals, of texts, of identifiers, of timestamps and
of each enumeration, and values of different scales have no order. Floats are on no scale, because
one that is no number has no order.
-/

namespace TypedQuery

/-- The place of a timestamp: its day, then its second, then the fraction. -/
def DateTime.place (t : DateTime) : Int ×ₗ Nat ×ₗ Nat :=
  toLex (t.day, toLex (t.second, t.nano))

/-- Timestamps compare as their places. -/
theorem DateTime.compare_eq (a b : DateTime) : a.compare b = Ord.compare a.place b.place := by
  unfold place
  rw [Prod.Lex.compare_def]
  unfold compareLex compareOn
  rw [Prod.Lex.compare_def]
  rfl

/-- What values are compared as. -/
inductive Scale
  | boolean
  | number
  | text
  | guid
  | dateTime
  | enum (type : String)

/-- The places of a scale. -/
def Scale.Place : Scale → Type
  | boolean => Bool
  | number => ℚ
  | text => String
  | guid => Nat
  | dateTime => Int ×ₗ Nat ×ₗ Nat
  | enum _ => Int

instance : (scale : Scale) → LinearOrder scale.Place
  | .boolean => inferInstanceAs (LinearOrder Bool)
  | .number => inferInstanceAs (LinearOrder ℚ)
  | .text => inferInstanceAs (LinearOrder String)
  | .guid => inferInstanceAs (LinearOrder Nat)
  | .dateTime => inferInstanceAs (LinearOrder (Int ×ₗ Nat ×ₗ Nat))
  | .enum _ => inferInstanceAs (LinearOrder Int)

/-- The order that a linear order tells of two elements holds of them. -/
theorem compares_compare {α : Type} [LinearOrder α] (x y : α) :
    (Ord.compare x y).Compares x y := by
  have h := cmp_compares x y
  rwa [cmp_eq_compare] at h

namespace Value

/-- The scale of a value. `null` and everything that has no order are on none, and neither are
floats. -/
def scale? : Value → Option Scale
  | boolean _ => some .boolean
  | int _ | uint _ | decimal _ => some .number
  | text _ => some .text
  | guid _ => some .guid
  | dateTime _ => some .dateTime
  | enum type _ _ => some (.enum type)
  | null | float _ | list _ | object _ _ | record _ _ => none

/-- The place of a value on a scale. -/
def place? : (scale : Scale) → Value → Option scale.Place
  | .boolean, boolean b => some b
  | .number, value => value.number?
  | .text, text s => some s
  | .guid, guid g => some g.bits.toNat
  | .dateTime, dateTime t => some t.place
  | .enum type, enum other _ number => if other = type then some number.toInt else none
  | _, _ => none

variable {a b value : Value} {scale : Scale}

/-- A value on a scale has a place there. -/
theorem exists_place (h : value.scale? = some scale) : ∃ x, place? scale value = some x := by
  cases value <;> cases h <;> first | exact ⟨_, rfl⟩ | exact ⟨_, if_pos rfl⟩

/-- Values compare as their places on a scale. -/
theorem compare_of_places {x y : scale.Place} (ha : place? scale a = some x)
    (hb : place? scale b = some y) :
    ∃ order, compare a b = some order ∧ order.Compares x y := by
  cases scale with
  | number => exact compares_of_number? ha hb
  | boolean =>
    cases a <;> cases ha
    cases b <;> cases hb
    exact ⟨_, rfl, @compares_compare Bool _ _ _⟩
  | text =>
    cases a <;> cases ha
    cases b <;> cases hb
    exact ⟨_, rfl, compares_compare x y⟩
  | guid =>
    cases a <;> cases ha
    cases b <;> cases hb
    exact ⟨_, rfl, compares_compare _ _⟩
  | dateTime =>
    cases a <;> cases ha
    cases b <;> cases hb
    exact ⟨_, rfl, DateTime.compare_eq _ _ ▸ compares_compare _ _⟩
  | enum type =>
    cases a with
    | enum first _ m =>
      cases b with
      | enum second _ n =>
        obtain ⟨rfl, ⟨⟩⟩ := Option.ite_none_right_eq_some.mp ha
        obtain ⟨rfl, ⟨⟩⟩ := Option.ite_none_right_eq_some.mp hb
        exact ⟨_, if_pos rfl, compares_compare _ _⟩
      | _ => cases hb
    | _ => cases ha

/-- The value `null` comes before everything else. -/
theorem compare_null (h : value ≠ .null) :
    compare .null value = some .lt ∧ compare value .null = some .gt := by
  cases value with
  | null => exact absurd rfl h
  | _ => exact ⟨rfl, rfl⟩

/-- Apart from floats, values that have an order are on one scale, unless one is `null`. -/
theorem exists_scale_of_compare {order : Ordering} (h : compare a b = some order) (ha : a ≠ .null)
    (hb : b ≠ .null) (hfloat : ∀ x, a ≠ .float x) (hfloat' : ∀ x, b ≠ .float x) :
    ∃ scale, a.scale? = some scale ∧ b.scale? = some scale := by
  cases a with
  | null => exact absurd rfl ha
  | float x => exact absurd rfl (hfloat x)
  | enum type _ _ =>
    cases b with
    | null => exact absurd rfl hb
    | float y => exact absurd rfl (hfloat' y)
    | enum other _ _ =>
      have hsame : type = other := by
        by_contra hne
        simp [compare, hne] at h
      exact ⟨_, rfl, hsame ▸ rfl⟩
    | _ => cases h
  | _ =>
    cases b <;> first
      | exact ⟨_, rfl, rfl⟩
      | exact absurd rfl hb
      | exact absurd rfl (hfloat' _)
      | cases h

/-- Values compare as the places in a linear order to which they are mapped. -/
def Ranked (values : Value → Prop) : Prop :=
  ∃ (α : Type) (_ : LinearOrder α) (place : Value → α), ∀ a b, values a → values b →
    ∃ order, compare a b = some order ∧ order.Compares (place a) (place b)

/-- Fewer values compare as places if more do. -/
theorem Ranked.mono {values fewer : Value → Prop} (h : Ranked values)
    (hfewer : ∀ value, fewer value → values value) : Ranked fewer := by
  obtain ⟨α, linear, place, hplace⟩ := h
  exact ⟨α, linear, place, fun a b ha hb => hplace a b (hfewer a ha) (hfewer b hb)⟩

/-- The place of a value on a scale, with a place for `null` below all of them. -/
def rank (scale : Scale) (value : Value) : WithBot scale.Place :=
  (place? scale value).elim ⊥ fun x => (x : WithBot scale.Place)

/-- The place of `null` is below all others. -/
theorem rank_null (scale : Scale) : rank scale .null = ⊥ := by
  cases scale <;> rfl

/-- A value with a place on a scale is ranked by it. -/
theorem rank_of_place {x : scale.Place} (h : place? scale value = some x) :
    rank scale value = x := by
  unfold rank
  rw [h, Option.elim_some]

/-- The values of a scale are ranked, with `null` in a place below theirs. -/
theorem ranked_scale (scale : Scale) :
    Ranked fun value => value = .null ∨ value.scale? = some scale := by
  have hsome : ∀ {value : Value}, value.scale? = some scale → value ≠ .null := by
    rintro value h rfl
    cases h
  refine ⟨WithBot scale.Place, inferInstance, rank scale, fun a b ha hb => ?_⟩
  rcases ha with rfl | ha
  · rcases hb with rfl | hb
    · exact ⟨.eq, rfl, rfl⟩
    · obtain ⟨y, hy⟩ := exists_place hb
      refine ⟨.lt, (compare_null (hsome hb)).1, ?_⟩
      rw [rank_null, rank_of_place hy]
      exact WithBot.bot_lt_coe y
  · obtain ⟨x, hx⟩ := exists_place ha
    rcases hb with rfl | hb
    · refine ⟨.gt, (compare_null (hsome ha)).2, ?_⟩
      rw [rank_null, rank_of_place hx]
      exact WithBot.bot_lt_coe x
    · obtain ⟨y, hy⟩ := exists_place hb
      obtain ⟨order, horder, hcompares⟩ := compare_of_places hx hy
      refine ⟨order, horder, ?_⟩
      rw [rank_of_place hx, rank_of_place hy]
      cases order with
      | lt => exact WithBot.coe_lt_coe.mpr hcompares
      | eq => exact congrArg _ hcompares
      | gt => exact WithBot.coe_lt_coe.mpr hcompares

/-- Keys that are no floats are ranked if every two of them have an order. -/
theorem ranked_of_comparable {keys : List Value} (hfloat : ∀ key ∈ keys, ∀ x, key ≠ .float x)
    (hcomparable : ∀ a ∈ keys, ∀ b ∈ keys, ∃ order, compare a b = some order) :
    Ranked (· ∈ keys) := by
  by_cases hnull : ∀ key ∈ keys, key = .null
  · exact (ranked_scale .boolean).mono fun key hkey => .inl (hnull key hkey)
  · push Not at hnull
    obtain ⟨first, hfirst, hsome⟩ := hnull
    obtain ⟨order, horder⟩ := hcomparable first hfirst first hfirst
    obtain ⟨scale, hscale, -⟩ := exists_scale_of_compare horder hsome hsome
      (hfloat first hfirst) (hfloat first hfirst)
    refine (ranked_scale scale).mono fun key hkey => ?_
    by_cases hother : key = .null
    · exact .inl hother
    · obtain ⟨order, horder⟩ := hcomparable first hfirst key hkey
      obtain ⟨same, hsame, hon⟩ := exists_scale_of_compare horder hsome hother
        (hfloat first hfirst) (hfloat key hkey)
      cases hscale.symm.trans hsame
      exact .inr hon

variable {members : Members} {ty : Ty}

/-- Apart from `null`, all values of a type that can be sorted are on one scale, if the type is
neither dynamic nor that of floats. -/
theorem exists_scale_of_isOrderable (members : Members) (horderable : ty.isOrderable = true)
    (hdefinite : ty.Definite) :
    ∃ scale, ∀ value : Value, value.Conforms members ty →
      value = .null ∨ value.scale? = some scale := by
  have hkind : ∀ {core : Ty}, ty.underlying = core → core.core = core → ∀ {value : Value},
      value.Conforms members ty → value = .null ∨ value.HasKind core := by
    intro core hunderlying hcore value hvalue
    refine hvalue.agrees.null_or_kind ?_
    rw [← Ty.core_underlying, hunderlying, hcore]
  unfold Ty.isOrderable at horderable
  split at horderable
  · rename_i kind hty
    refine ⟨.number, fun value hvalue => (hkind hty rfl hvalue).imp_right fun h => ?_⟩
    cases value <;> first | rfl | cases h
  · rename_i hty
    exact absurd (by rw [← Ty.core_underlying, hty]; rfl) hdefinite.2
  · rename_i hty
    refine ⟨.number, fun value hvalue => (hkind hty rfl hvalue).imp_right ?_⟩
    rintro ⟨d, rfl⟩
    rfl
  · rename_i hty
    refine ⟨.text, fun value hvalue => (hkind hty rfl hvalue).imp_right ?_⟩
    rintro ⟨s, rfl⟩
    rfl
  · rename_i hty
    refine ⟨.dateTime, fun value hvalue => (hkind hty rfl hvalue).imp_right ?_⟩
    rintro ⟨t, rfl⟩
    rfl
  · rename_i hty
    refine ⟨.guid, fun value hvalue => (hkind hty rfl hvalue).imp_right ?_⟩
    rintro ⟨g, rfl⟩
    rfl
  · rename_i name hty
    refine ⟨.enum name, fun value hvalue => (hkind hty rfl hvalue).imp_right ?_⟩
    rintro ⟨member?, number, rfl⟩
    rfl
  · rename_i hty
    refine ⟨.boolean, fun value hvalue => (hkind hty rfl hvalue).imp_right ?_⟩
    rintro ⟨b, rfl⟩
    rfl
  · rename_i hty
    exact absurd (by rw [← Ty.core_underlying, hty]; rfl) hdefinite.1
  · cases horderable

/-- The values of such a type are ranked. -/
theorem ranked_of_isOrderable (horderable : ty.isOrderable = true) (hdefinite : ty.Definite) :
    Ranked fun value => value.Conforms members ty := by
  obtain ⟨scale, hscale⟩ := exists_scale_of_isOrderable members horderable hdefinite
  exact (ranked_scale scale).mono hscale

end Value

end TypedQuery
