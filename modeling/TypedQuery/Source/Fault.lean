import TypedQuery.Decimal.Reader
import TypedQuery.Source.Position
import TypedQuery.Token.Basic

/-!
# Faults of a source text

Why a text is not an expression or a document, and where.
-/

namespace TypedQuery

/-- Why a text is malformed. -/
inductive SyntaxFault
  | variableName
  | singleAmpersand
  | singleBar
  | character (c : Char)
  | escape (c : Char)
  | endAfterBackslash
  | missingQuote
  | decimalLiteral (digits : String) (fault : Decimal.ReadFault)
  | integerDigits (digits : String)
  | integerRange (negative : Bool) (n : UInt64)
  | expected (token found : Token)
  | expectedName (found : Token)
  | expectedExpression (found : Token)
  | expectedDefinition (found : Token)
  | noOperations
  | expectedVariable (found : Token)
  | expectedOn (found : Token)
  | missingBrace
  | expectedValue (found : Token)
  | expectedNumber
  | tooDeep
deriving DecidableEq

namespace SyntaxFault

/-- The wording of a fault. -/
def message : SyntaxFault → String
  | variableName => "Expected variable name after '$'"
  | singleAmpersand => "Unexpected '&' (did you mean '&&' or 'and'?)"
  | singleBar => "Unexpected '|' (did you mean '||' or 'or'?)"
  | character c => "Unexpected character '" ++ toString c ++ "'"
  | escape c => "Invalid escape sequence: \\" ++ toString c
  | endAfterBackslash => "Unterminated string: unexpected end of input after backslash"
  | missingQuote => "Unterminated string: missing closing quote"
  | decimalLiteral digits fault => "Invalid decimal literal '" ++ digits ++ "': " ++ fault.message
  | integerDigits digits => "Integer literal '" ++ digits ++ "' is out of range"
  | integerRange negative n =>
    "Integer literal " ++ (if negative then "-" else "") ++ toString n.toNat ++ " is out of range"
  | expected token found => "Expected " ++ token.description ++ ", got " ++ found.description
  | expectedName found => "Expected a name, got " ++ found.description
  | expectedExpression found => "Unexpected token in expression: " ++ found.description
  | expectedDefinition found =>
    "Expected an operation or fragment definition, got " ++ found.description
  | noOperations => "Document contains no operations"
  | expectedVariable found => "Expected variable definition, got " ++ found.description
  | expectedOn found => "Expected 'on' in fragment definition, got " ++ found.description
  | missingBrace => "Unterminated selection set: missing '\x7d'"
  | expectedValue found => "Unexpected token in argument value: " ++ found.description
  | expectedNumber => "Expected a number after '-'"
  | tooDeep => "The text is nested too deeply"

end SyntaxFault

/-- A fault and its place. -/
structure SyntaxError where
  fault : SyntaxFault
  position : Position
deriving DecidableEq

/-- The wording of a fault with its place. -/
def SyntaxError.message (e : SyntaxError) : String :=
  e.fault.message ++ " at " ++ e.position.text

end TypedQuery
