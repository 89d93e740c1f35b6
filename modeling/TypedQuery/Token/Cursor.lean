import TypedQuery.Expr.Literal
import TypedQuery.Token.Scan

/-!
# Reading tokens one by one

A reader looks at one current token and moves on. A fault in the text of a later
token shows only when the reader reaches it.
-/

namespace TypedQuery

/-- A place between the tokens of a source text. -/
structure Cursor where
  source : List Char
  current : Lexeme
  rest : List (Except ScanError Lexeme)
  previousStop : Nat

/-- A computation that reads tokens and may find the text malformed. -/
abbrev Reader := StateT Cursor (Except SyntaxError)

namespace Cursor

/-- The cursor at the first token of a source text. -/
def ofSource (source : String) : Except SyntaxError Cursor :=
  match lexemes source with
  | .ok first :: rest => .ok ⟨source.toList, first, rest, 0⟩
  | .error e :: _ => .error e.error
  | [] => .ok ⟨source.toList, ⟨.eof, .start, 0⟩, [], 0⟩

/-- The number of tokens that are left. -/
def size (cursor : Cursor) : Nat :=
  cursor.rest.length + 1

end Cursor

namespace Reader

/-- The current token. -/
def current : Reader Token := do
  return (← get).current.token

/-- The position of the current token. -/
def position : Reader Position := do
  return (← get).current.start

/-- Finds a fault at the current token. -/
def fail {α : Type} (fault : SyntaxFault) : Reader α := do
  throw ⟨fault, ← position⟩

/-- Moves to the next token. The end of the text stays where it is. -/
def advance : Reader Unit := do
  let cursor ← get
  match cursor.rest with
  | [] => set { cursor with previousStop := cursor.current.stop }
  | .ok next :: rest =>
    set { cursor with current := next, rest, previousStop := cursor.current.stop }
  | .error e :: _ => throw e.error

/-- Whether the current token is the given one. -/
def atToken (token : Token) : Reader Bool := do
  return (← current) = token

/-- Whether the current token is the given symbol. -/
def atSymbol (symbol : Symbol) : Reader Bool :=
  atToken (.symbol symbol)

/-- Passes the given token. -/
def expectToken (token : Token) : Reader Unit := do
  let found ← current
  if found = token then advance else fail (.expected token found)

/-- Passes the given symbol. -/
def expect (symbol : Symbol) : Reader Unit :=
  expectToken (.symbol symbol)

/-- Passes a name: an identifier or a keyword. -/
def name : Reader String := do
  let found ← current
  match found.name? with
  | some name =>
    advance
    return name
  | none => fail (.expectedName found)

/-- The signed integer of a literal. -/
def signedInteger (negative : Bool) (n : UInt64) : Reader Int64 :=
  if negative then
    if n.toNat ≤ powerOfTwo 63 then return Int64.ofInt (-(n.toNat : Int))
    else fail (.integerRange negative n)
  else if n.toNat < powerOfTwo 63 then return Int64.ofInt n.toNat
  else fail (.integerRange negative n)

/-- Passes a literal that is written by one token. -/
def literal? : Reader (Option Literal) := do
  match ← current with
  | .integer n =>
    let value ← signedInteger false n
    advance
    return some (.integer value)
  | .decimal d =>
    advance
    return some (.decimal d)
  | .text s =>
    advance
    return some (.text s)
  | .boolean b =>
    advance
    return some (.boolean b)
  | .symbol .null =>
    advance
    return some .null
  | _ => return none

/-- Passes a number after a minus sign. -/
def negated? : Reader (Option Literal) := do
  match ← current with
  | .integer n =>
    let value ← signedInteger true n
    advance
    return some (.integer value)
  | .decimal d =>
    advance
    return some (.decimal d.neg)
  | _ => return none

/-- The source text from an offset to the end of the last token that was passed,
without blanks at its ends. -/
def textFrom (offset : Nat) : Reader String := do
  let cursor ← get
  return String.ofList (Text.trim ((cursor.source.take cursor.previousStop).drop offset))

end Reader

end TypedQuery
