import TypedQuery.Decimal.Reader
import TypedQuery.Json.Basic
import TypedQuery.Value.Basic

/-!
# JSON as values

Variables come as JSON without types. Their objects become objects of the type
`Input`, and their numbers decimals unless they are integers.
-/

namespace TypedQuery.Json

/-- The decimal of a float's text. -/
def Number.decimal? (x : Float) : Option Decimal :=
  let digits := (Number.float x).text.toList
  (Decimal.read? digits).or (Decimal.readScientific? digits)

/-- The value of a number. -/
def Number.toValue : Number → Value
  | natural n => .ofUInt64 n
  | negative n => .int n
  | float x =>
    match decimal? x with
    | some d => .decimal d
    | none => .float x

mutual

/-- The value of a JSON value. -/
def toValue : Json → Value
  | null => .null
  | bool b => .boolean b
  | number n => n.toValue
  | string s => .text s
  | array items => .list (itemsToValue items)
  | object members => .object "Input" (Entries.ofList (membersToValue members))

/-- The values of items. -/
def itemsToValue : List Json → List Value
  | [] => []
  | item :: rest => toValue item :: itemsToValue rest

/-- The values of members. -/
def membersToValue : List (String × Json) → List (String × Value)
  | [] => []
  | (name, json) :: rest => (name, toValue json) :: membersToValue rest

end

/-- Items are decoded one by one. -/
theorem itemsToValue_eq_map (items : List Json) : itemsToValue items = items.map toValue := by
  induction items with
  | nil => rfl
  | cons item rest ih => rw [itemsToValue, ih, List.map_cons]

/-- Members are decoded one by one. -/
theorem membersToValue_eq_map (members : List (String × Json)) :
    membersToValue members = members.map fun member => (member.1, toValue member.2) := by
  induction members with
  | nil => rfl
  | cons member rest ih => rw [membersToValue, ih, List.map_cons]

end TypedQuery.Json
