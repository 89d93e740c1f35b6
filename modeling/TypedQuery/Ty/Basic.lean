import TypedQuery.Ty.IntKind

/-!
# Types

The static type of every part of a compiled query. Record types are structural: a
record type is its list of fields, and two records with the same fields in the
same order have the same type.
-/

namespace TypedQuery

/-- A static type. `any` defers all checks until a query runs, and `null` is the
type of the literal. -/
inductive Ty
  | any
  | null
  | boolean
  | int (kind : IntKind)
  | float
  | decimal
  | string
  | guid
  | dateTime
  | enum (name : String)
  | object (name : String)
  | record (fields : List (String × Ty))
  | list (element : Ty)
  | nullable (inner : Ty)

/-- The fields of a record type. -/
abbrev Signature := List (String × Ty)

namespace Ty

instance : Inhabited Ty := ⟨any⟩

mutual

/-- Two types have the same structure. -/
def same : Ty → Ty → Bool
  | any, any => true
  | null, null => true
  | boolean, boolean => true
  | int a, int b => a = b
  | float, float => true
  | decimal, decimal => true
  | string, string => true
  | guid, guid => true
  | dateTime, dateTime => true
  | enum a, enum b => a = b
  | object a, object b => a = b
  | record a, record b => sameFields a b
  | list a, list b => same a b
  | nullable a, nullable b => same a b
  | _, _ => false

/-- Two lists of fields have the same names and types in the same order. -/
def sameFields : List (String × Ty) → List (String × Ty) → Bool
  | [], [] => true
  | (m, a) :: as, (n, b) :: bs => m = n && same a b && sameFields as bs
  | _, _ => false

end

mutual

/-- Types that are found to be the same are. -/
theorem eq_of_same {a b : Ty} (h : same a b = true) : a = b := by
  cases a with
  | record as =>
    cases b with
    | record bs => rw [(eq_of_sameFields (by simpa [same] using h) : as = bs)]
    | _ => simp [same] at h
  | list a =>
    cases b with
    | list b => rw [(eq_of_same (by simpa [same] using h) : a = b)]
    | _ => simp [same] at h
  | nullable a =>
    cases b with
    | nullable b => rw [(eq_of_same (by simpa [same] using h) : a = b)]
    | _ => simp [same] at h
  | _ => cases b <;> simp_all [same]

/-- Fields that are found to be the same are. -/
theorem eq_of_sameFields {as bs : List (String × Ty)} (h : sameFields as bs = true) : as = bs := by
  match as, bs, h with
  | [], [], _ => rfl
  | (m, a) :: as, (n, b) :: bs, h =>
    simp only [sameFields, Bool.and_eq_true, decide_eq_true_eq] at h
    rw [h.1.1, eq_of_same h.1.2, eq_of_sameFields h.2]

end

mutual

/-- A type is found to be the same as itself. -/
theorem same_self (a : Ty) : same a a = true := by
  match a with
  | record as => simpa [same] using sameFields_self as
  | list a => simpa [same] using same_self a
  | nullable a => simpa [same] using same_self a
  | any | null | boolean | int _ | float | decimal | string | guid | dateTime | enum _
  | object _ => simp [same]

/-- Fields are found to be the same as themselves. -/
theorem sameFields_self (as : List (String × Ty)) : sameFields as as = true := by
  match as with
  | [] => rfl
  | (m, a) :: as => simp [sameFields, same_self a, sameFields_self as]

end

/-- Having the same structure is equality. -/
theorem same_iff {a b : Ty} : same a b = true ↔ a = b :=
  ⟨eq_of_same, fun h => h ▸ same_self a⟩

instance : DecidableEq Ty := fun a b => decidable_of_iff (same a b = true) same_iff

/-- The value `null` is one of the type. -/
def admitsNull : Ty → Bool
  | any | null | string | object _ | record _ | list _ | nullable _ => true
  | _ => false

/-- The type with `null` added. A type that admits `null` stays as it is. -/
def orNull (ty : Ty) : Ty :=
  if ty.admitsNull then ty else nullable ty

/-- The type without one `nullable` around it. -/
def underlying : Ty → Ty
  | nullable inner => inner
  | ty => ty

/-- The type has `nullable` around it. -/
def isNullable : Ty → Bool
  | nullable _ => true
  | _ => false

/-- The type is a list. -/
def isSequence : Ty → Bool
  | list _ => true
  | _ => false

/-- The type of the items of a list. -/
def element? : Ty → Option Ty
  | list element => some element
  | _ => none

/-- The type is Boolean and admits no `null`. -/
def isBoolean : Ty → Bool
  | boolean => true
  | _ => false

/-- The type is a string. -/
def isString (ty : Ty) : Bool :=
  match ty.underlying with
  | string => true
  | _ => false

/-- The kind of an integer type. -/
def intKind? (ty : Ty) : Option IntKind :=
  match ty.underlying with
  | int kind => some kind
  | _ => none

/-- The type is a number. -/
def isNumeric (ty : Ty) : Bool :=
  match ty.underlying with
  | int _ | float | decimal => true
  | _ => false

/-- Values of the type may be compared by order and sorted. -/
def isOrderable (ty : Ty) : Bool :=
  match ty.underlying with
  | int _ | float | decimal | string | dateTime | guid | enum _ | boolean | any => true
  | _ => false

/-- Fields may be selected from values of the type, or from the items of its lists. -/
def isComposite : Ty → Bool
  | object _ | record _ => true
  | list element => element.isComposite
  | nullable inner =>
    match inner with
    | object _ | record _ => true
    | list element => element.isComposite
    | _ => false
  | _ => false

/-- The type with `null` added when another type is nullable. -/
def nullableLike (ty like : Ty) : Ty :=
  if like.isNullable then ty.orNull else ty

end Ty

/-- The type of a field of a record. -/
def Signature.type? (fields : Signature) (name : String) : Option Ty :=
  fields.lookup name

/-- The place of a field of a record. -/
def Signature.index? (fields : Signature) (name : String) : Option Nat :=
  fields.findIdx? fun field => field.1 = name

end TypedQuery
