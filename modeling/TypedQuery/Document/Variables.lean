import TypedQuery.Document.Basic
import TypedQuery.Schema.Accept

/-!
# Variables and arguments of documents

The values that arguments are written with, and the variables of an operation at the
types that its header names.
-/

namespace TypedQuery

mutual

/-- The value of an argument, with variables replaced. The name of an enumeration
member is a string at first. -/
def Argument.value (vars : Entries Value) : Argument → Except CompileFault Value
  | .literal (.integer n) => .ok (.int n)
  | .literal (.decimal d) => .ok (.decimal d)
  | .literal (.text s) => .ok (.text s)
  | .literal (.boolean b) => .ok (.boolean b)
  | .literal .null => .ok .null
  | .enum name => .ok (.text name)
  | .var name =>
    match Entries.find? vars name with
    | some value => .ok value
    | none => .error (.unknownVariable name)
  | .list items => do return .list (← argumentValues vars items)
  | .object members => do
    return .object "Input" (Entries.ofList (← argumentMembers vars members))

/-- The values of items. -/
def argumentValues (vars : Entries Value) :
    List Argument → Except CompileFault (List Value)
  | [] => .ok []
  | item :: rest => do
    let value ← item.value vars
    let values ← argumentValues vars rest
    return value :: values

/-- The values of named arguments. -/
def argumentMembers (vars : Entries Value) :
    List (String × Argument) → Except CompileFault (List (String × Value))
  | [] => .ok []
  | (name, argument) :: rest => do
    let value ← argument.value vars
    let values ← argumentMembers vars rest
    return (name, value) :: values

end

namespace Schema

/-- The type of a name without marks. Names that are not known stand for the dynamic
type. -/
def namedTy (schema : Schema) (name : String) : Ty :=
  if name = "Int" then .int .i32
  else if name = "Long" then .int .i64
  else if name = "Float" then .float
  else if name = "Decimal" then .decimal
  else if name = "String" || name = "ID" then .string
  else if name = "Boolean" then .boolean
  else if name = "Guid" then .guid
  else if name = "Date" || name = "DateTime" then .dateTime
  else if (schema.enum? name).isSome then .enum name
  else if (schema.type? name).isSome then .object name
  else .any

/-- The text between brackets. -/
def bracketed? (text : List Char) : Option (List Char) :=
  match text with
  | '[' :: rest => if rest.getLast? = some ']' then some rest.dropLast else none
  | _ => none

/-- The type that the header of an operation names: `Int!`, `[String]`, `Status`.
Types without a mark admit `null`. -/
def headerTy (schema : Schema) : (fuel : Nat) → List Char → Ty
  | 0, _ => .any
  | fuel + 1, text =>
    let required := text.getLast? = some '!'
    let base := if required then text.dropLast else text
    let ty := match bracketed? base with
      | some element => .list (headerTy schema fuel element)
      | none => schema.namedTy (String.ofList base)
    if required then ty else ty.orNull

/-- The value of a declared variable: what is supplied, or its default, or `null`. -/
def bindVariable (schema : Schema) (supplied : Entries Value)
    (definition : VariableDefinition) : Except CompileFault Value := do
  let ty := schema.headerTy (definition.typeName.length + 1) definition.typeName.toList
  let target := "$" ++ definition.name
  let value ←
    match Entries.find? supplied definition.name with
    | some value => .ok value
    | none =>
      match definition.default? with
      | some argument => argument.value []
      | none => .ok .null
  if value.isNull && !ty.admitsNull then
    .error (.argument target (.requiredVariable definition.typeName))
  else
    match schema.accept ty value with
    | .ok result => return result
    | .error fault => .error (.argument target (.ofVariable fault))

/-- The variables of an operation: the declared ones in their order, and then those
that are supplied without a declaration. -/
def bindVariables (schema : Schema) (definitions : List VariableDefinition)
    (supplied : Entries Value) : Except CompileFault (Entries Value) := do
  let declared ← definitions.mapM fun definition => do
    return (definition.name, ← schema.bindVariable supplied definition)
  let declared := Entries.ofList declared
  let others := List.filter (fun entry => !Entries.contains declared entry.1) supplied
  return Entries.extend declared others

end Schema

end TypedQuery
