import TypedQuery.Json.Basic

/-!
# Reading JSON

A text is one JSON value with blanks around it. Arrays and objects are nested less
than 128 deep. Of two members of one name the first keeps its place and the last its
value.
-/

namespace TypedQuery.Json

/-- The blanks of JSON. -/
def isBlank (c : Char) : Bool :=
  c = ' ' || c = '\t' || c = '\n' || c = '\r'

/-- A text without the blanks at its start. -/
def skipBlanks (text : List Char) : List Char :=
  text.dropWhile isBlank

/-- The value of a hexadecimal digit. -/
def hexValue? (c : Char) : Option Nat :=
  if c.isDigit then some (digitValue c)
  else if 'a' ≤ c ∧ c ≤ 'f' then some (c.toNat - 'a'.toNat + 10)
  else if 'A' ≤ c ∧ c ≤ 'F' then some (c.toNat - 'A'.toNat + 10)
  else none

/-- Cuts four hexadecimal digits off a text. -/
def hexUnit? : List Char → Option (Nat × List Char)
  | a :: b :: c :: d :: rest => do
    return (((← hexValue? a) * 16 + (← hexValue? b)) * 256 + (← hexValue? c) * 16 +
      (← hexValue? d), rest)
  | _ => none

/-- The character of an escape after `\u`. A high surrogate needs a low one in a
second escape. -/
def unicodeEscape? (text : List Char) : Option (Char × List Char) := do
  let (unit, rest) ← hexUnit? text
  if 0xdc00 ≤ unit ∧ unit ≤ 0xdfff then none
  else if 0xd800 ≤ unit ∧ unit ≤ 0xdbff then
    match rest with
    | '\\' :: 'u' :: more => do
      let (low, rest) ← hexUnit? more
      if 0xdc00 ≤ low ∧ low ≤ 0xdfff then
        return (Char.ofNat (0x10000 + (unit - 0xd800) * 0x400 + (low - 0xdc00)), rest)
      else none
    | _ => none
  else return (Char.ofNat unit, rest)

/-- The character of an escape of one letter. -/
def simpleEscape? (c : Char) : Option Char :=
  if c = '"' || c = '\\' || c = '/' then some c
  else if c = 'b' then some (Char.ofNat 8)
  else if c = 'f' then some (Char.ofNat 12)
  else if c = 'n' then some '\n'
  else if c = 'r' then some '\r'
  else if c = 't' then some '\t'
  else none

/-- Reads the characters of a string up to its closing quote. -/
def readString? : (fuel : Nat) → List Char → Option (List Char × List Char)
  | 0, _ => none
  | _, [] => none
  | fuel + 1, c :: rest =>
    if c = '"' then some ([], rest)
    else if c.toNat < 32 then none
    else if c = '\\' then
      match rest with
      | [] => none
      | 'u' :: more => do
        let (d, rest) ← unicodeEscape? more
        let (chars, rest) ← readString? fuel rest
        return (d :: chars, rest)
      | e :: more => do
        let d ← simpleEscape? e
        let (chars, rest) ← readString? fuel more
        return (d :: chars, rest)
    else do
      let (chars, rest) ← readString? fuel rest
      return (c :: chars, rest)

/-- Reads a string after its opening quote. -/
def string? (fuel : Nat) (text : List Char) : Option (String × List Char) :=
  (readString? fuel text).map fun (chars, rest) => (String.ofList chars, rest)

/-- Passes a given word. -/
def word? (word : String) (text : List Char) : Option (List Char) :=
  if word.toList.isPrefixOf text then some (text.drop word.length) else none

mutual

/-- Reads a value after blanks. `depth` is how deeply arrays and objects may still be
nested. -/
def readValue? : (fuel depth : Nat) → List Char → Option (Json × List Char)
  | 0, _, _ => none
  | fuel + 1, depth, text =>
    match skipBlanks text with
    | [] => none
    | '"' :: rest => (string? fuel rest).map fun (s, rest) => (string s, rest)
    | '[' :: rest =>
      match depth with
      | 0 => none
      | depth + 1 =>
        match skipBlanks rest with
        | ']' :: rest => some (array [], rest)
        | rest => (readItems? fuel depth rest).map fun (items, rest) => (array items, rest)
    | '\x7b' :: rest =>
      match depth with
      | 0 => none
      | depth + 1 =>
        match skipBlanks rest with
        | '\x7d' :: rest => some (object [], rest)
        | rest =>
          (readMembers? fuel depth rest).map fun (members, rest) =>
            (object (Entries.ofList members), rest)
    | 'n' :: rest => (word? "ull" rest).map fun rest => (null, rest)
    | 't' :: rest => (word? "rue" rest).map fun rest => (bool true, rest)
    | 'f' :: rest => (word? "alse" rest).map fun rest => (bool false, rest)
    | rest => (Number.scan? rest).map fun (n, rest) => (number n, rest)

/-- Reads items with commas between them up to a closing bracket. -/
def readItems? : (fuel depth : Nat) → List Char → Option (List Json × List Char)
  | 0, _, _ => none
  | fuel + 1, depth, text => do
    let (item, rest) ← readValue? fuel depth text
    match skipBlanks rest with
    | ',' :: rest => do
      let (items, rest) ← readItems? fuel depth rest
      return (item :: items, rest)
    | ']' :: rest => return ([item], rest)
    | _ => none

/-- Reads members with commas between them up to a closing brace. -/
def readMembers? : (fuel depth : Nat) → List Char → Option (List (String × Json) × List Char)
  | 0, _, _ => none
  | fuel + 1, depth, text => do
    match skipBlanks text with
    | '"' :: rest =>
      let (name, rest) ← string? fuel rest
      match skipBlanks rest with
      | ':' :: rest =>
        let (value, rest) ← readValue? fuel depth rest
        match skipBlanks rest with
        | ',' :: rest => do
          let (members, rest) ← readMembers? fuel depth rest
          return ((name, value) :: members, rest)
        | '\x7d' :: rest => return ([(name, value)], rest)
        | _ => none
      | _ => none
    | _ => none

end

/-- How deeply arrays and objects may be nested. -/
def maxDepth : Nat := 127

/-- Reads a text as one JSON value. -/
def read? (source : String) : Option Json :=
  match readValue? (2 * source.length + 1) maxDepth source.toList with
  | some (json, rest) => if (skipBlanks rest).isEmpty then some json else none
  | none => none

end TypedQuery.Json
