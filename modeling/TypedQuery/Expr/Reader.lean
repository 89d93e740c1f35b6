import TypedQuery.Expr.Basic
import TypedQuery.Token.Cursor

/-!
# Reading expressions

From the loosest to the tightest binding: conditional, `or`, `and`, equality,
order, sum, product, power, sign and negation, access and calls. Sums and products
associate to the left, powers to the right. Nested parts are read with less fuel,
and the fuel given at the start suffices for every text.
-/

namespace TypedQuery

/-- The levels of operators that associate to the left. -/
inductive Level
  | or
  | and
  | equality
  | order
  | sum
  | product
deriving DecidableEq

namespace Level

/-- The next tighter level; above products come powers. -/
def tighter? : Level → Option Level
  | or => some and
  | and => some equality
  | equality => some order
  | order => some sum
  | sum => some product
  | product => none

/-- The operator of a level that a token stands for. -/
def operator? : Level → Token → Option Operator
  | or, .symbol .or => some .or
  | and, .symbol .and => some .and
  | equality, .symbol .eq => some .equal
  | equality, .symbol .notEq => some .notEqual
  | order, .symbol .less => some .less
  | order, .symbol .lessEq => some .lessEqual
  | order, .symbol .greater => some .greater
  | order, .symbol .greaterEq => some .greaterEqual
  | sum, .symbol .plus => some .add
  | sum, .symbol .minus => some .subtract
  | product, .symbol .star => some .multiply
  | product, .symbol .slash => some .divide
  | product, .symbol .percent => some .modulo
  | _, _ => none

end Level

namespace Expr

open Reader

mutual

/-- Reads an expression. -/
def readAny : Nat → Reader Expr
  | 0 => fail .tooDeep
  | fuel + 1 => do
    let start ← position
    let test ← readLevel fuel .or
    if ← atSymbol .question then
      let testText ← textFrom start.offset
      advance
      let yes ← readAny fuel
      expect .colon
      let no ← readAny fuel
      return conditional test testText yes no
    else return test

/-- Reads operands of a level with its operators between them. -/
def readLevel : Nat → Level → Reader Expr
  | 0, _ => fail .tooDeep
  | fuel + 1, level => do
    let left ← readOperand fuel level
    readChain fuel level left

/-- Reads an operand of a level. -/
def readOperand : Nat → Level → Reader Expr
  | 0, _ => fail .tooDeep
  | fuel + 1, level =>
    match level.tighter? with
    | some next => readLevel fuel next
    | none => readPower fuel

/-- Reads the operators of a level that follow its first operand. -/
def readChain : Nat → Level → Expr → Reader Expr
  | 0, _, _ => fail .tooDeep
  | fuel + 1, level, left => do
    match level.operator? (← current) with
    | none => return left
    | some op =>
      advance
      let right ← readOperand fuel level
      readChain fuel level (binary op left right)

/-- Reads a power. -/
def readPower : Nat → Reader Expr
  | 0 => fail .tooDeep
  | fuel + 1 => do
    let left ← readSigned fuel
    if ← atSymbol .caret then
      advance
      let right ← readPower fuel
      return binary .power left right
    else return left

/-- Reads negations and signs. A sign before a number belongs to the number. -/
def readSigned : Nat → Reader Expr
  | 0 => fail .tooDeep
  | fuel + 1 => do
    match ← current with
    | .symbol .not | .symbol .bang =>
      advance
      let operand ← readSigned fuel
      return operand.negation
    | .symbol .minus =>
      advance
      match ← negated? with
      | some value => return literal value
      | none =>
        let operand ← readSigned fuel
        return operand.opposite
    | _ => do
      let start ← readPrimary fuel
      readPath fuel start

/-- Reads accesses and calls that follow an expression. -/
def readPath : Nat → Expr → Reader Expr
  | 0, _ => fail .tooDeep
  | fuel + 1, object => do
    if ← atSymbol .dot then
      advance
      let member ← name
      if ← atSymbol .leftParen then
        let arguments ← readArguments fuel
        readPath fuel (call object member arguments)
      else readPath fuel (access object member)
    else return object

/-- Reads a literal, a variable, a name, a call without receiver, an expression in
parentheses or a conditional with keywords. -/
def readPrimary : Nat → Reader Expr
  | 0 => fail .tooDeep
  | fuel + 1 => do
    match ← literal? with
    | some value => return literal value
    | none =>
      match ← current with
      | .var name =>
        advance
        return var name
      | .identifier name =>
        advance
        if ← atSymbol .leftParen then
          let arguments ← readArguments fuel
          return invoke name arguments
        else return identifier name
      | .symbol .leftParen =>
        advance
        let inner ← readAny fuel
        expect .rightParen
        return inner
      | .symbol .cond =>
        advance
        let start ← position
        let test ← readAny fuel
        let testText ← textFrom start.offset
        expect .thenBranch
        let yes ← readAny fuel
        expect .elseBranch
        let no ← readAny fuel
        return conditional test testText yes no
      | found => fail (.expectedExpression found)

/-- Reads arguments in parentheses. A comma may follow the last one. -/
def readArguments : Nat → Reader (List Expr)
  | 0 => fail .tooDeep
  | fuel + 1 => do
    expect .leftParen
    let arguments ← readItems fuel
    expect .rightParen
    return arguments

/-- Reads arguments up to a closing parenthesis. -/
def readItems : Nat → Reader (List Expr)
  | 0 => fail .tooDeep
  | fuel + 1 => do
    if ← atSymbol .rightParen then return []
    else
      let item ← readAny fuel
      if ← atSymbol .rightParen then return [item]
      else
        expect .comma
        let items ← readItems fuel
        return item :: items

end

/-- The fuel that suffices to read a number of tokens. -/
def fuelFor (tokens : Nat) : Nat :=
  20 * (tokens + 1)

/-- Reads an expression and the end of the text. -/
def readWhole : Reader Expr := do
  let expr ← readAny (fuelFor (← get).size)
  expectToken .eof
  return expr

/-- Reads a source text as an expression. -/
def read (source : String) : Except SyntaxError Expr := do
  let cursor ← Cursor.ofSource source
  let (expr, _) ← readWhole.run cursor
  return expr

end Expr

end TypedQuery
