import TypedQuery.Binary.Text
import TypedQuery.Register
import TypedQuery.Value.Basic

/-!
# Values in messages

The texts by which messages and conversions write values.
-/

namespace TypedQuery.Value

/-- The text of a number, a truth value, an identifier or a string. These are the
values that convert to strings. -/
def plain? : Value → Option String
  | boolean b => some (if b then "true" else "false")
  | int n => some (toString n.toInt)
  | uint n => some (toString n.toNat)
  | float x => some (Binary.text Binary.messageLayout x)
  | decimal d => some d.text
  | guid g => some g.text
  | text s => some s
  | _ => none

/-- How messages show a value. Strings are quoted, lists show their length, objects
and records their type. -/
def display (register : Register) (value : Value) : String :=
  match value with
  | null => "null"
  | text s => "\"" ++ s ++ "\""
  | dateTime t => t.text
  | enum _ (some member) _ => member
  | enum type none number => type ++ "(" ++ toString number.toInt ++ ")"
  | list items => "[" ++ toString items.length ++ " item(s)]"
  | object type _ => type
  | record fields _ => register.nameOf fields
  | value => value.plain?.getD ""

end TypedQuery.Value
