import TypedQuery.Value.Basic

/-!
# Enumerations
-/

namespace TypedQuery

/-- A declared enumeration: names with their numbers. -/
structure EnumType where
  name : String
  members : Entries Int64

namespace EnumType

/-- The number of a member. -/
def valueOf? (enum : EnumType) (member : String) : Option Int64 :=
  Entries.find? enum.members member

/-- The first member with a number. -/
def nameOf? (enum : EnumType) (number : Int64) : Option String :=
  (List.find? (fun entry => entry.2 = number) enum.members).map Prod.fst

/-- The value of the enumeration with a number. -/
def value (enum : EnumType) (number : Int64) : Value :=
  .enum enum.name (enum.nameOf? number) number

/-- The value of the enumeration for the name of a member, for the number of a
declared member, or for a value of the enumeration. -/
def convert? (enum : EnumType) (value : Value) : Option Value :=
  let ofNumber (n : Int) : Option Value :=
    if IntKind.fits .i64 n && (enum.nameOf? (Int64.ofInt n)).isSome then
      some (enum.value (Int64.ofInt n))
    else none
  match value with
  | .text member => (enum.valueOf? member).map enum.value
  | .enum type _ number =>
    if type = enum.name then some (enum.value number) else ofNumber number.toInt
  | value => value.integer?.bind ofNumber

end EnumType

end TypedQuery
