import TypedQuery.Proofs.Computation
import TypedQuery.Proofs.Plan.Reconciling
import TypedQuery.Schema.Accept

/-!
# Accepted values

A value that is accepted at a type becomes a value of the type in its normal form: an integer as it
is kept at its kind, a decimal for a number, a member of an enumeration for its name or its number,
an identifier or a timestamp for its text, and so for the items of lists. `null` is accepted where
the type admits it and nowhere below. What is in normal form is accepted as it is, and nothing else
is.
-/

namespace TypedQuery

/-- The type is made of types of single values by lists and `nullable` alone. -/
def Ty.isPlain : Ty → Bool
  | boolean | int _ | float | decimal | string | guid | dateTime | enum _ => true
  | list element => element.isPlain
  | nullable inner => inner.isPlain
  | any | null | object _ | record _ => false

namespace Schema

/-- The value is one of a plain type, at every depth, in the one form in which the type keeps it. -/
inductive Normal (schema : Schema) : Value → Ty → Prop
  | null {ty : Ty} (hadmits : ty.admitsNull = true) : Normal schema .null ty
  | nullable {value : Value} {inner : Ty} (hvalue : Normal schema value inner) :
      Normal schema value (.nullable inner)
  | boolean (b : Bool) : Normal schema (.boolean b) .boolean
  | int {n : Int64} {kind : IntKind} (hfits : kind.fits n.toInt = true) :
      Normal schema (.int n) (.int kind)
  | uint {n : UInt64} {kind : IntKind} (hlarge : IntKind.fits .i64 n.toNat = false)
      (hfits : kind.fits n.toNat = true) : Normal schema (.uint n) (.int kind)
  | float (x : Float) : Normal schema (.float x) .float
  | decimal (d : Decimal) : Normal schema (.decimal d) .decimal
  | text (s : String) : Normal schema (.text s) .string
  | guid (g : Guid) : Normal schema (.guid g) .guid
  | dateTime (t : DateTime) : Normal schema (.dateTime t) .dateTime
  | enum {name : String} {enum : EnumType} (henum : schema.enum? name = some enum)
      (number : Int64) : Normal schema (.enum name (enum.nameOf? number) number) (.enum name)
  | list {items : List Value} {element : Ty}
      (hitems : ∀ item ∈ items, Normal schema item element) :
      Normal schema (.list items) (.list element)

variable {schema : Schema} {value result : Value} {ty inner element : Ty} {kind : IntKind}

/-- What is accepted at a plain type is in normal form. -/
theorem normal_of_accept :
    (ty : Ty) → (value result : Value) → ty.isPlain = true → schema.accept ty value = .ok result →
      schema.Normal result ty
  | .nullable inner, value, result, hplain, h => by
    unfold accept at h
    split at h
    · cases h
      exact .null rfl
    · exact .nullable (normal_of_accept inner value result hplain h)
  | .list element, value, result, hplain, h => by
    cases value with
    | null =>
      cases h
      exact .null rfl
    | list items =>
      unfold accept at h
      cases hitems : items.mapM fun item => schema.accept element item with
      | error fault =>
        rw [hitems] at h
        cases h
      | ok results =>
        rw [hitems] at h
        cases h
        refine .list fun found hfound => ?_
        obtain ⟨item, -, hitem⟩ :=
          Returns.exists_of_mem_of_forall₂ (mapM_eq_ok.mp hitems) hfound
        exact normal_of_accept element item found hplain hitem
    | _ => cases h
  | .int kind, value, result, _, h => by
    have hinteger : (value.integer?.bind fun n => Value.ofInt? n kind) = some result := by
      cases value with
      | null => cases h
      | _ =>
        unfold accept at h
        split at h
        · cases h
          assumption
        · cases h
    -- an integer is kept without a sign only where it is too large for one with a sign
    obtain ⟨n, -, hn⟩ := Option.bind_eq_some_iff.mp hinteger
    obtain ⟨hfits, ⟨m, rfl, rfl⟩ | ⟨m, hlarge, rfl, rfl⟩⟩ := Value.ofInt?_eq_some.mp hn
    · exact .int hfits
    · exact .uint hlarge hfits
  | .enum name, value, result, _, h => by
    cases value with
    | null => cases h
    | _ =>
      unfold accept at h
      split at h
      · cases h
      · rename_i enum henum
        split at h
        · rename_i hconvert
          cases h
          obtain ⟨number, rfl⟩ := EnumType.exists_value_of_convert? hconvert
          unfold EnumType.value
          rw [name_of_enum? henum]
          exact .enum henum number
        · cases h
  | .boolean, value, result, _, h => by
    cases value <;> cases h
    exact .boolean _
  | .string, value, result, _, h => by
    cases value <;> cases h
    · exact .null rfl
    · exact .text _
  | .float, value, result, _, h => by
    cases value with
    | null => cases h
    | _ =>
      unfold accept at h
      split at h <;> cases h
      exact .float _
  | .decimal, value, result, _, h => by
    cases value with
    | null => cases h
    | _ =>
      unfold accept at h
      split at h <;> cases h
      exact .decimal _
  | .guid, value, result, _, h => by
    cases value with
    | guid g =>
      cases h
      exact .guid g
    | text s =>
      unfold accept at h
      split at h <;> cases h
      exact .guid _
    | _ => cases h
  | .dateTime, value, result, _, h => by
    cases value with
    | dateTime t =>
      cases h
      exact .dateTime t
    | text s =>
      unfold accept at h
      split at h <;> cases h
      exact .dateTime _
    | _ => cases h

/-- The values of an enumeration convert to themselves. -/
theorem convert?_value (enum : EnumType) (number : Int64) :
    enum.convert? (enum.value number) = some (enum.value number) := by
  unfold EnumType.convert? EnumType.value
  exact if_pos rfl

/-- An integer of a kind is accepted as it is made for the kind. -/
theorem accept_int {n : Int} (hn : value.integer? = some n)
    (hvalue : Value.ofInt? n kind = some value) : schema.accept (.int kind) value = .ok value := by
  cases value with
  | null => cases hn
  | _ =>
    unfold accept
    rw [hn, Option.bind_some, hvalue]

/-- What is in normal form is accepted as it is. -/
theorem accept_of_normal (h : schema.Normal value ty) : schema.accept ty value = .ok value := by
  induction h with
  | @null ty hadmits =>
    cases ty <;> first | rfl | cases hadmits
  | @nullable value inner _ ih =>
    cases value with
    | null => rfl
    | _ => exact ih
  | boolean | float | decimal | text | guid | dateTime => rfl
  | int hfits => exact accept_int rfl (Value.ofInt?_eq_some.mpr ⟨hfits, .inl ⟨_, rfl, rfl⟩⟩)
  | uint hlarge hfits =>
    exact accept_int rfl (Value.ofInt?_eq_some.mpr ⟨hfits, .inr ⟨_, hlarge, rfl, rfl⟩⟩)
  | @enum name enum henum number =>
    have hconvert := convert?_value enum number
    unfold EnumType.value at hconvert
    rw [name_of_enum? henum] at hconvert
    unfold accept
    simp only [henum, hconvert]
  | @list items element _ ih =>
    have hitems : (items.mapM fun item => schema.accept element item) = .ok items :=
      mapM_eq_ok.mpr (List.forall₂_same.mpr ih)
    unfold accept
    rw [hitems]
    rfl

end Schema

end TypedQuery
