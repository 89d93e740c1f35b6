import TypedQuery.Document.Basic
import TypedQuery.Token.Cursor

/-!
# Reading documents

Commas are optional between definitions, arguments, items and selections. Keywords
of the expression language are names here.
-/

namespace TypedQuery.Document

open Reader

/-- Passes any number of commas. -/
def skipCommas : Nat → Reader Unit
  | 0 => fail .tooDeep
  | fuel + 1 => do
    if ← atSymbol .comma then
      advance
      skipCommas fuel

mutual

/-- Reads the value of an argument. -/
def readArgument : Nat → Reader Argument
  | 0 => fail .tooDeep
  | fuel + 1 => do
    match ← literal? with
    | some value => return .literal value
    | none =>
      match ← current with
      | .var name =>
        advance
        return .var name
      | .symbol .minus =>
        advance
        match ← negated? with
        | some value => return .literal value
        | none => fail .expectedNumber
      | .identifier name =>
        advance
        return .enum name
      | .symbol .leftBracket =>
        advance
        let items ← readItems fuel
        expect .rightBracket
        return .list items
      | .symbol .leftBrace =>
        advance
        let members ← readMembers .rightBrace fuel
        expect .rightBrace
        return .object members
      | found => fail (.expectedValue found)

/-- Reads values up to a closing bracket. -/
def readItems : Nat → Reader (List Argument)
  | 0 => fail .tooDeep
  | fuel + 1 => do
    if ← atSymbol .rightBracket then return []
    else
      let item ← readArgument fuel
      skipCommas fuel
      let items ← readItems fuel
      return item :: items

/-- Reads named values up to a closing symbol. -/
def readMembers (close : Symbol) : Nat → Reader (List (String × Argument))
  | 0 => fail .tooDeep
  | fuel + 1 => do
    if ← atSymbol close then return []
    else
      let member ← name
      expect .colon
      let value ← readArgument fuel
      skipCommas fuel
      let members ← readMembers close fuel
      return (member, value) :: members

end

/-- Reads the arguments of a field, if there are any. -/
def readArguments (fuel : Nat) : Reader (List (String × Argument)) := do
  if ← atSymbol .leftParen then
    advance
    let arguments ← readMembers .rightParen fuel
    expect .rightParen
    return arguments
  else return []

mutual

/-- Reads selections in braces. -/
def readSelectionSet : Nat → Reader (List Selection)
  | 0 => fail .tooDeep
  | fuel + 1 => do
    expect .leftBrace
    let selections ← readSelections fuel
    expect .rightBrace
    return selections

/-- Reads selections up to a closing brace. -/
def readSelections : Nat → Reader (List Selection)
  | 0 => fail .tooDeep
  | fuel + 1 => do
    if ← atSymbol .rightBrace then return []
    else if ← atToken .eof then fail .missingBrace
    else
      let selection ← readSelection fuel
      skipCommas fuel
      let selections ← readSelections fuel
      return selection :: selections

/-- Reads a field or the place of a fragment. -/
def readSelection : Nat → Reader Selection
  | 0 => fail .tooDeep
  | fuel + 1 => do
    let start ← position
    if ← atSymbol .spread then
      advance
      let fragment ← name
      return .spread fragment start
    else
      let first ← name
      let second ←
        if ← atSymbol .colon then
          advance
          let second ← name
          pure (some second)
        else pure none
      let arguments ← readArguments fuel
      let selections ← if ← atSymbol .leftBrace then readSelectionSet fuel else pure []
      match second with
      | some member => return .field member (some first) arguments selections start
      | none => return .field first none arguments selections start

end

/-- Reads the name of a type: a name or a type in brackets, with an optional mark
at its end. -/
def readTypeName : Nat → Reader String
  | 0 => fail .tooDeep
  | fuel + 1 => do
    let base ←
      if ← atSymbol .leftBracket then
        advance
        let inner ← readTypeName fuel
        expect .rightBracket
        pure ("[" ++ inner ++ "]")
      else name
    if ← atSymbol .bang then
      advance
      return base ++ "!"
    else return base

/-- Reads variable definitions up to a closing parenthesis. -/
def readVariables : Nat → Reader (List VariableDefinition)
  | 0 => fail .tooDeep
  | fuel + 1 => do
    match ← current with
    | .symbol .rightParen => return []
    | .var name =>
      advance
      expect .colon
      let typeName ← readTypeName fuel
      let default? ←
        if ← atSymbol .eq then
          advance
          let value ← readArgument fuel
          pure (some value)
        else pure none
      skipCommas fuel
      let definitions ← readVariables fuel
      return ⟨name, typeName, default?⟩ :: definitions
    | found => fail (.expectedVariable found)

/-- Reads an operation after its keyword. -/
def readOperation (fuel : Nat) (kind : OperationKind) : Reader Operation := do
  let name? ←
    if (← atSymbol .leftBrace) || (← atSymbol .leftParen) then pure none
    else
      let name ← name
      pure (some name)
  let vars ←
    if ← atSymbol .leftParen then
      advance
      let definitions ← readVariables fuel
      expect .rightParen
      pure definitions
    else pure []
  let selections ← readSelectionSet fuel
  return ⟨kind, name?, vars, selections⟩

/-- Reads a fragment after its keyword. -/
def readFragment (fuel : Nat) : Reader Fragment := do
  let fragment ← name
  let found ← current
  if found = .identifier "on" then
    advance
    let typeCondition ← name
    let selections ← readSelectionSet fuel
    return ⟨fragment, typeCondition, selections⟩
  else fail (.expectedOn found)

/-- Reads definitions up to the end of the text. -/
def readDefinitions : Nat → Reader Document
  | 0 => fail .tooDeep
  | fuel + 1 => do
    match ← current with
    | .eof => return empty
    | .symbol .leftBrace =>
      let selections ← readSelectionSet fuel
      let document ← readDefinitions fuel
      return { document with operations := ⟨.query, none, [], selections⟩ :: document.operations }
    | .identifier word =>
      if word = "query" || word = "mutation" then
        advance
        let operation ← readOperation fuel (if word = "query" then .query else .mutation)
        let document ← readDefinitions fuel
        return { document with operations := operation :: document.operations }
      else if word = "fragment" then
        advance
        let fragment ← readFragment fuel
        let document ← readDefinitions fuel
        return { document with fragments := fragment :: document.fragments }
      else fail (.expectedDefinition (.identifier word))
    | found => fail (.expectedDefinition found)

/-- The fuel that suffices to read a number of tokens. -/
def fuelFor (tokens : Nat) : Nat :=
  4 * (tokens + 1)

/-- Reads a document with at least one operation. -/
def readWhole : Reader Document := do
  let document ← readDefinitions (fuelFor (← get).size)
  if document.operations.isEmpty then fail .noOperations else return document

/-- Reads a source text as a document. -/
def read (source : String) : Except SyntaxError Document := do
  let cursor ← Cursor.ofSource source
  let (document, _) ← readWhole.run cursor
  return document

end TypedQuery.Document
