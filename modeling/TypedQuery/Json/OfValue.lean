import TypedQuery.Json.Basic
import TypedQuery.Schema.Basic

/-!
# Values as JSON

Records and objects keep the order of their fields, members of enumerations are
written by their names where they are known, and identifiers and timestamps are
strings. Floats without a number and the infinities become `null`.
-/

namespace TypedQuery

/-- The JSON of a decimal: its digits read as a JSON number. -/
def Decimal.toJson (d : Decimal) : Json :=
  match Json.Number.read? d.normalize.text with
  | some n => .number n
  | none => .string d.normalize.text

/-- The name of a member of an enumeration: its own, or the one that a schema
declares for its number. -/
def enumMemberName? (schema? : Option Schema) (type : String) (member? : Option String)
    (number : Int64) : Option String :=
  member?.or ((schema?.bind fun schema => schema.enum? type).bind fun enum => enum.nameOf? number)

namespace Value

mutual

/-- The JSON of a value. -/
def toJson (schema? : Option Schema) : Value → Json
  | null => .null
  | boolean b => .bool b
  | int n => .number (.ofInt64 n)
  | uint n => .number (.natural n)
  | float x =>
    match Json.Number.ofFloat? x with
    | some n => .number n
    | none => .null
  | decimal d => d.toJson
  | text s => .string s
  | guid g => .string g.text
  | dateTime t => .string t.text
  | enum type member? number =>
    match enumMemberName? schema? type member? number with
    | some member => .string member
    | none => .number (.ofInt64 number)
  | list items => .array (itemsToJson schema? items)
  | object _ members => .object (Entries.ofList (membersToJson schema? members))
  | record fields values =>
    .object (Entries.ofList ((fields.map Prod.fst).zip (itemsToJson schema? values)))

/-- The JSON of the items of a list. -/
def itemsToJson (schema? : Option Schema) : List Value → List Json
  | [] => []
  | item :: rest => toJson schema? item :: itemsToJson schema? rest

/-- The JSON of the members of an object. -/
def membersToJson (schema? : Option Schema) : List (String × Value) → List (String × Json)
  | [] => []
  | (name, value) :: rest => (name, toJson schema? value) :: membersToJson schema? rest

end

/-- Items are written one by one. -/
theorem itemsToJson_eq_map (schema? : Option Schema) (items : List Value) :
    itemsToJson schema? items = items.map (toJson schema?) := by
  induction items with
  | nil => rfl
  | cons item rest ih => rw [itemsToJson, ih, List.map_cons]

/-- Members are written one by one. -/
theorem membersToJson_eq_map (schema? : Option Schema) (members : List (String × Value)) :
    membersToJson schema? members =
      members.map fun member => (member.1, toJson schema? member.2) := by
  induction members with
  | nil => rfl
  | cons member rest ih => rw [membersToJson, ih, List.map_cons]

end Value

end TypedQuery
