import TypedQuery.Entries
import TypedQuery.Json.Number

/-!
# JSON

Documents of JSON with their members in order, and their compact and indented
texts.
-/

namespace TypedQuery

/-- A JSON value. -/
inductive Json
  | null
  | bool (b : Bool)
  | number (n : Json.Number)
  | string (s : String)
  | array (items : List Json)
  | object (members : List (String × Json))

namespace Json

instance : Inhabited Json := ⟨null⟩

/-- The text of a string. -/
def text? : Json → Option String
  | string s => some s
  | _ => none

/-- The number of an integer. -/
def integer? : Json → Option Int
  | number (.natural n) => some n.toNat
  | number (.negative n) => some n.toInt
  | _ => none

/-- The items of an array. -/
def items? : Json → Option (List Json)
  | array items => some items
  | _ => none

/-- The value of a member of an object. -/
def member? (json : Json) (name : String) : Option Json :=
  match json with
  | object members => Entries.find? members name
  | _ => none

/-- A hexadecimal digit in small letters. -/
def hexDigit (n : Nat) : Char :=
  if n < 10 then Char.ofNat ('0'.toNat + n) else Char.ofNat ('a'.toNat + n - 10)

/-- A character as it stands between quotes. -/
def escaped (c : Char) : List Char :=
  if c = '"' then ['\\', '"']
  else if c = '\\' then ['\\', '\\']
  else if c = '\n' then ['\\', 'n']
  else if c = '\r' then ['\\', 'r']
  else if c = '\t' then ['\\', 't']
  else if c.toNat = 8 then ['\\', 'b']
  else if c.toNat = 12 then ['\\', 'f']
  else if c.toNat < 32 then ['\\', 'u', '0', '0', hexDigit (c.toNat / 16), hexDigit (c.toNat % 16)]
  else [c]

/-- A string between quotes. -/
def quoted (s : String) : String :=
  String.ofList (['"'] ++ s.toList.flatMap escaped ++ ['"'])

/-- The braces around the members of an object. -/
def openBrace : String := "\x7b"

/-- The brace after the members of an object. -/
def closeBrace : String := "\x7d"

mutual

/-- The text without blanks. -/
def compact : Json → String
  | null => "null"
  | bool b => if b then "true" else "false"
  | number n => n.text
  | string s => quoted s
  | array items => "[" ++ ",".intercalate (compactItems items) ++ "]"
  | object members => openBrace ++ ",".intercalate (compactMembers members) ++ closeBrace

/-- The texts of items. -/
def compactItems : List Json → List String
  | [] => []
  | item :: rest => compact item :: compactItems rest

/-- The texts of members. -/
def compactMembers : List (String × Json) → List String
  | [] => []
  | (name, value) :: rest => (quoted name ++ ":" ++ compact value) :: compactMembers rest

end

/-- The start of a line at a depth of nesting. -/
def indent (depth : Nat) : String :=
  "\n" ++ String.ofList (List.replicate (2 * depth) ' ')

mutual

/-- The text with one item or member in a line. -/
def indented (depth : Nat) : Json → String
  | array [] => "[]"
  | array (item :: rest) =>
    "[" ++ indent (depth + 1) ++
      ("," ++ indent (depth + 1)).intercalate (indentedItems (depth + 1) (item :: rest)) ++
      indent depth ++ "]"
  | object [] => openBrace ++ closeBrace
  | object (member :: rest) =>
    openBrace ++ indent (depth + 1) ++
      ("," ++ indent (depth + 1)).intercalate (indentedMembers (depth + 1) (member :: rest)) ++
      indent depth ++ closeBrace
  | null => "null"
  | bool b => if b then "true" else "false"
  | number n => n.text
  | string s => quoted s

/-- The texts of items. -/
def indentedItems (depth : Nat) : List Json → List String
  | [] => []
  | item :: rest => indented depth item :: indentedItems depth rest

/-- The texts of members. -/
def indentedMembers (depth : Nat) : List (String × Json) → List String
  | [] => []
  | (name, value) :: rest =>
    (quoted name ++ ": " ++ indented depth value) :: indentedMembers depth rest

end

/-- The indented text of a document. -/
def pretty (json : Json) : String :=
  indented 0 json

end Json

end TypedQuery
