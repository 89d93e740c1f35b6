import TypedQuery.Proofs.Entries
import TypedQuery.Schema.Basic

/-!
# Values that conform to types

A value conforms to a type when it is of the type's kind throughout: an integer in range, a
list of conforming items, an object whose known members conform, a record with the fields of
the type. `null` conforms to every type, every value to the dynamic type, and `nullable`
changes nothing.
-/

namespace TypedQuery

/-- The members that objects of a type are known to have, with the types of their values. -/
abbrev Members := String → String → Ty → Prop

/-- The members that the fields of a schema read. -/
def Schema.members (schema : Schema) : Members := fun type host ty =>
  ∃ name field, schema.field? type name = some field ∧ field.resolver = .member host ∧
    field.ty = ty

/-- What holds of all fields in the table of types holds of every field that is found. -/
theorem Schema.of_forall_fields {schema : Schema} {P : String → String → FieldDefinition → Prop}
    (h : ∀ type ∈ schema.types, ∀ field ∈ type.2.fields, P type.1 field.1 field.2)
    {type name : String} {field : FieldDefinition} (hfield : schema.field? type name = some field) :
    P type name field := by
  obtain ⟨object, hobject, hfound⟩ := Option.bind_eq_some_iff.mp hfield
  exact h _ (Entries.mem_of_find? hobject) _ (Entries.mem_of_find? hfound)

namespace Ty

/-- The type without any `nullable` around it. -/
def core : Ty → Ty
  | nullable inner => inner.core
  | ty => ty

/-- The type underneath has the core of the type. -/
@[simp] theorem core_underlying (ty : Ty) : ty.underlying.core = ty.core := by
  cases ty <;> rfl

/-- A type that admits `null` has the core of the type. -/
@[simp] theorem core_orNull (ty : Ty) : ty.orNull.core = ty.core := by
  unfold orNull
  split <;> rfl

/-- A type that is nullable like another one has its own core. -/
@[simp] theorem core_nullableLike (ty like : Ty) : (ty.nullableLike like).core = ty.core := by
  unfold nullableLike
  split
  · exact core_orNull ty
  · rfl

/-- A core is not nullable. -/
theorem core_ne_nullable (inner : Ty) : (ty : Ty) → ty.core ≠ nullable inner
  | nullable ty => core_ne_nullable inner ty
  | any | null | boolean | int _ | float | decimal | string | guid | dateTime | enum _ | object _
  | record _ | list _ => nofun

/-- The types of integers of a kind. -/
theorem exists_core_of_intKind? {ty : Ty} (h : ty.intKind?.isSome = true) :
    ∃ kind, ty.core = .int kind := by
  have hcore := core_underlying ty
  unfold intKind? at h
  split at h
  · rename_i kind hty
    rw [hty] at hcore
    exact ⟨kind, hcore.symm⟩
  · cases h

/-- The core of a type of texts is that of texts. -/
theorem core_of_isString {ty : Ty} (h : ty.isString = true) : ty.core = .string := by
  have hcore := core_underlying ty
  unfold isString at h
  split at h
  · rename_i hty
    rw [hty] at hcore
    exact hcore.symm
  · cases h

/-- A type with elements is that of lists of them. -/
theorem eq_list_of_element? {ty element : Ty} (h : ty.element? = some element) :
    ty = .list element := by
  cases ty <;> cases h
  rfl

/-- The types whose values are neither lists nor objects nor records. -/
def isScalar (ty : Ty) : Bool :=
  match ty.core with
  | any | object _ | record _ | list _ => false
  | _ => true

end Ty

/-- A number is in the range of a kind between its bounds. -/
theorem IntKind.fits_iff {kind : IntKind} {n : Int} :
    kind.fits n = true ↔ kind.least ≤ n ∧ n ≤ kind.greatest := by
  simp [fits]

/-- A natural number fits in 64 bits with a sign if it fits in the 63 bits beside the sign. -/
theorem IntKind.fits_natCast {n : Nat} : IntKind.fits .i64 n = true ↔ n < powerOfTwo 63 := by
  rw [fits_iff]
  change -(powerOfTwo 63 : Int) ≤ n ∧ (n : Int) ≤ powerOfTwo 63 - 1 ↔ _
  omega

/-- A signed integer is in the range of its kind. -/
theorem IntKind.fits_toInt (n : Int64) : IntKind.fits .i64 n.toInt = true :=
  fits_iff.mpr ⟨n.le_toInt, n.toInt_le⟩

/-- An integer that fits in 64 bits with a sign is kept in them. -/
theorem IntKind.toInt_ofInt {n : Int} (h : IntKind.fits .i64 n = true) :
    (Int64.ofInt n).toInt = n := by
  have hrange : -(2 ^ 63 : Int) ≤ n ∧ n ≤ 2 ^ 63 - 1 := fits_iff.mp h
  exact Int64.toInt_ofInt_of_le hrange.1 (Int.lt_of_le_sub_one hrange.2)

namespace Value

/-- The value is neither a list nor an object nor a record. -/
def isScalar : Value → Bool
  | list _ | object _ _ | record _ _ => false
  | _ => true

/-- The value is of the kind of a type, with all its parts. -/
inductive Conforms (members : Members) : Value → Ty → Prop
  | null {ty : Ty} : Conforms members .null ty
  | any {value : Value} {ty : Ty} (h : ty.core = .any) : Conforms members value ty
  | boolean {b : Bool} {ty : Ty} (h : ty.core = .boolean) : Conforms members (.boolean b) ty
  | int {n : Int64} {ty : Ty} {kind : IntKind} (h : ty.core = .int kind)
      (hfits : kind.fits n.toInt = true) : Conforms members (.int n) ty
  | uint {n : UInt64} {ty : Ty} {kind : IntKind} (h : ty.core = .int kind)
      (hfits : kind.fits n.toNat = true) : Conforms members (.uint n) ty
  | float {x : Float} {ty : Ty} (h : ty.core = .float) : Conforms members (.float x) ty
  | decimal {d : Decimal} {ty : Ty} (h : ty.core = .decimal) : Conforms members (.decimal d) ty
  | text {s : String} {ty : Ty} (h : ty.core = .string) : Conforms members (.text s) ty
  | guid {g : Guid} {ty : Ty} (h : ty.core = .guid) : Conforms members (.guid g) ty
  | dateTime {t : DateTime} {ty : Ty} (h : ty.core = .dateTime) :
      Conforms members (.dateTime t) ty
  | enum {name : String} {member? : Option String} {number : Int64} {ty : Ty}
      (h : ty.core = .enum name) : Conforms members (.enum name member? number) ty
  | list {items : List Value} {ty element : Ty} (h : ty.core = .list element)
      (hitems : ∀ item ∈ items, Conforms members item element) : Conforms members (.list items) ty
  | object {name type : String} {entries : List (String × Value)} {ty : Ty}
      (h : ty.core = .object type)
      (hmembers : ∀ host memberTy value, members type host memberTy →
        Entries.find? entries host = some value → Conforms members value memberTy) :
      Conforms members (.object name entries) ty
  | record {fields : Signature} {values : List Value} {ty : Ty} (h : ty.core = .record fields)
      (hlength : values.length = fields.length)
      (hvalues : ∀ (i : Nat) field value, fields[i]? = some field → values[i]? = some value →
        Conforms members value field.2) :
      Conforms members (.record fields values) ty

/-- The number of items that every list has to stay below so that an `Int32` can count
them. -/
def countLimit : Nat := powerOfTwo 31

/-- All lists inside of a value have fewer items than `countLimit`. -/
inductive Short : Value → Prop
  | scalar {value : Value} (h : value.isScalar = true) : Short value
  | list {items : List Value} (hlength : items.length < countLimit)
      (hitems : ∀ item ∈ items, Short item) : Short (.list items)
  | object {name : String} {entries : List (String × Value)}
      (hvalues : ∀ entry ∈ entries, Short entry.2) : Short (.object name entries)
  | record {fields : Signature} {values : List Value}
      (hvalues : ∀ value ∈ values, Short value) : Short (.record fields values)

variable {members : Members} {value : Value} {a b : Ty}

/-- Only the type without `nullable` matters. -/
theorem Conforms.of_core_eq (h : value.Conforms members a) (hcore : a.core = b.core) :
    value.Conforms members b := by
  cases h with
  | null => exact .null
  | any h => exact .any (hcore ▸ h)
  | boolean h => exact .boolean (hcore ▸ h)
  | int h hfits => exact .int (hcore ▸ h) hfits
  | uint h hfits => exact .uint (hcore ▸ h) hfits
  | float h => exact .float (hcore ▸ h)
  | decimal h => exact .decimal (hcore ▸ h)
  | text h => exact .text (hcore ▸ h)
  | guid h => exact .guid (hcore ▸ h)
  | dateTime h => exact .dateTime (hcore ▸ h)
  | enum h => exact .enum (hcore ▸ h)
  | list h hitems => exact .list (hcore ▸ h) hitems
  | object h hmembers => exact .object (hcore ▸ h) hmembers
  | record h hlength hvalues => exact .record (hcore ▸ h) hlength hvalues

/-- Only `null` conforms to the type of the literal. -/
theorem Conforms.eq_null (h : value.Conforms members .null) : value = .null := by
  cases h <;> first | rfl | (rename_i h; simp [Ty.core] at h)

/-- The items of a list conform to its element type. -/
theorem Conforms.item {items : List Value} {element : Ty}
    (h : (Value.list items).Conforms members (.list element)) :
    ∀ item ∈ items, item.Conforms members element := by
  cases h with
  | any h => simp [Ty.core] at h
  | list h hitems =>
    cases h
    exact hitems

/-- The items of a short list are short, and an `Int32` can count them. -/
theorem Short.item {items : List Value} (h : (Value.list items).Short) :
    items.length < countLimit ∧ ∀ item ∈ items, item.Short := by
  cases h with
  | scalar h => cases h
  | list hlength hitems => exact ⟨hlength, hitems⟩

/-- A part of the items of a list makes a list that is no longer. -/
theorem Short.of_sublist {items kept : List Value} (h : (Value.list items).Short)
    (hlength : kept.length ≤ items.length) (hkept : ∀ item ∈ kept, item ∈ items) :
    (Value.list kept).Short :=
  .list (Nat.lt_of_le_of_lt hlength h.item.1) fun item hitem => h.item.2 item (hkept item hitem)

/-- The integers that are made for a kind: those in its range, unsigned only beyond the signed
ones. -/
theorem ofInt?_eq_some {n : Int} {kind : IntKind} :
    ofInt? n kind = some value ↔ kind.fits n = true ∧
      ((∃ m : Int64, m.toInt = n ∧ value = .int m) ∨
        ∃ m : UInt64, IntKind.fits .i64 m.toNat = false ∧ (m.toNat : Int) = n ∧
          value = .uint m) := by
  have hunsigned : IntKind.fits .u64 n = true ↔ (0 : Int) ≤ n ∧ n ≤ 2 ^ 64 - 1 := IntKind.fits_iff
  unfold ofInt?
  by_cases hkind : kind.fits n = true
  · rw [hkind, Bool.not_true, if_neg Bool.false_ne_true]
    constructor
    · intro h
      refine ⟨rfl, ?_⟩
      split at h
      · rename_i hfits
        cases h
        exact .inl ⟨_, IntKind.toInt_ofInt hfits, rfl⟩
      · rename_i hlarge
        split at h
        · rename_i hfits
          have hrange := hunsigned.mp hfits
          have hnat : ((UInt64.ofNat n.toNat).toNat : Int) = n := by
            rw [UInt64.toNat_ofNat', Nat.mod_eq_of_lt (by omega)]
            omega
          cases h
          exact .inr ⟨_, hnat.symm ▸ Bool.eq_false_iff.mpr hlarge, hnat, rfl⟩
        · cases h
    · rintro ⟨-, ⟨m, rfl, rfl⟩ | ⟨m, hlarge, rfl, rfl⟩⟩
      · rw [if_pos (IntKind.fits_toInt m), Int64.ofInt_toInt]
      · have hsmall : m.toNat < 2 ^ 64 := m.toNat_lt
        rw [hlarge, if_neg Bool.false_ne_true, if_pos (hunsigned.mpr (by omega)),
          Int.toNat_natCast, UInt64.ofNat_toNat]
  · rw [if_pos (by simpa using hkind)]
    exact ⟨nofun, fun h => absurd h.1 hkind⟩

/-- An integer that is made for a kind lies in its range. -/
theorem conforms_of_ofInt? {n : Int} {kind : IntKind} {ty : Ty} (h : ofInt? n kind = some value)
    (hcore : ty.core = .int kind) : value.Conforms members ty ∧ value.isScalar = true := by
  obtain ⟨hfits, ⟨m, rfl, rfl⟩ | ⟨m, -, rfl, rfl⟩⟩ := ofInt?_eq_some.mp h
  · exact ⟨.int hcore hfits, rfl⟩
  · exact ⟨.uint hcore hfits, rfl⟩

end Value

end TypedQuery
