import TypedQuery.Decimal.Basic
import TypedQuery.Text.Quoted

/-!
# Tokens

The words of the expression language and of query documents. Both languages share
one set of tokens.
-/

namespace TypedQuery

/-- A token that stands for itself: a keyword, an operator or a delimiter. -/
inductive Symbol
  | and
  | or
  | not
  | cond
  | thenBranch
  | elseBranch
  | null
  | eq
  | notEq
  | less
  | lessEq
  | greater
  | greaterEq
  | plus
  | minus
  | star
  | slash
  | percent
  | caret
  | bang
  | question
  | leftParen
  | rightParen
  | leftBrace
  | rightBrace
  | leftBracket
  | rightBracket
  | dot
  | spread
  | comma
  | colon
deriving DecidableEq

/-- The name by which messages refer to a symbol. -/
def Symbol.name : Symbol → String
  | and => "And"
  | or => "Or"
  | not => "Not"
  | cond => "If"
  | thenBranch => "Then"
  | elseBranch => "Else"
  | null => "Null"
  | eq => "Eq"
  | notEq => "NotEq"
  | less => "Lt"
  | lessEq => "LtEq"
  | greater => "Gt"
  | greaterEq => "GtEq"
  | plus => "Plus"
  | minus => "Minus"
  | star => "Star"
  | slash => "Slash"
  | percent => "Percent"
  | caret => "Caret"
  | bang => "Bang"
  | question => "Question"
  | leftParen => "LParen"
  | rightParen => "RParen"
  | leftBrace => "LBrace"
  | rightBrace => "RBrace"
  | leftBracket => "LBracket"
  | rightBracket => "RBracket"
  | dot => "Dot"
  | spread => "Spread"
  | comma => "Comma"
  | colon => "Colon"

/-- A token. Integers have no sign yet, so that the smallest signed integer can be
written. -/
inductive Token
  | integer (n : UInt64)
  | decimal (d : Decimal)
  | text (s : String)
  | boolean (b : Bool)
  | var (name : String)
  | identifier (name : String)
  | symbol (s : Symbol)
  | eof
deriving DecidableEq

namespace Token

/-- How messages write a token. -/
def description : Token → String
  | integer n => "Integer(" ++ toString n.toNat ++ ")"
  | decimal d => "Decimal(" ++ d.text ++ ")"
  | text s => "String(" ++ Text.quoted s ++ ")"
  | boolean true => "Boolean(true)"
  | boolean false => "Boolean(false)"
  | var name => "Variable(" ++ Text.quoted name ++ ")"
  | identifier name => "Identifier(" ++ Text.quoted name ++ ")"
  | symbol s => s.name
  | eof => "Eof"

/-- The kind of a token, without what it carries. -/
def kindName : Token → String
  | integer _ => "Integer"
  | decimal _ => "Decimal"
  | text _ => "String"
  | boolean _ => "Boolean"
  | var _ => "Variable"
  | identifier _ => "Identifier"
  | symbol s => s.name
  | eof => "Eof"

/-- The word that is written for a keyword. Keywords are names after a point and in
documents. -/
def keyword? : Token → Option String
  | symbol .and => some "and"
  | symbol .or => some "or"
  | symbol .not => some "not"
  | symbol .cond => some "if"
  | symbol .thenBranch => some "then"
  | symbol .elseBranch => some "else"
  | symbol .null => some "null"
  | boolean true => some "true"
  | boolean false => some "false"
  | _ => none

/-- The token of a word: a keyword, or else an identifier. -/
def ofWord (word : String) : Token :=
  if word = "and" then symbol .and
  else if word = "or" then symbol .or
  else if word = "not" then symbol .not
  else if word = "if" then symbol .cond
  else if word = "then" then symbol .thenBranch
  else if word = "else" then symbol .elseBranch
  else if word = "true" then boolean true
  else if word = "false" then boolean false
  else if word = "null" then symbol .null
  else identifier word

/-- The name that a token can stand for. -/
def name? : Token → Option String
  | identifier name => some name
  | token => token.keyword?

end Token

end TypedQuery
