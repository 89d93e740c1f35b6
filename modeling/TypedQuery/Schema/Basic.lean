import TypedQuery.Claims
import TypedQuery.Compile.Session
import TypedQuery.Plan.Eval
import TypedQuery.Schema.EnumType
import TypedQuery.Text.Camel

/-!
# Schemas

What queries are compiled against: the object types of the host with their fields,
the enumerations, and the routines that mutations call.
-/

namespace TypedQuery

/-- An argument that a field or a mutation takes. -/
structure ArgumentDefinition where
  name : String
  ty : Ty
  default? : Option Value

/-- The argument has to be supplied: it has no default and may not be `null`. -/
def ArgumentDefinition.isRequired (argument : ArgumentDefinition) : Bool :=
  argument.default?.isNone && !argument.ty.admitsNull

/-- How a field gets its value: by reading a member of the host, from an expression
over its parent, or from a service that receives the values of such expressions. -/
inductive Resolver
  | member (host : String)
  | computed (source : String)
  | service (service : String) (inputs : List String)
      (run : Value → List Value → Except String Value)

/-- The arguments of documents that a field with a list accepts on top of its own. -/
structure SequenceArguments where
  filter : Bool
  sort : Bool
  paging : Bool
deriving DecidableEq

namespace SequenceArguments

/-- No sequence arguments. -/
def none : SequenceArguments := ⟨false, false, false⟩

/-- All sequence arguments. -/
def all : SequenceArguments := ⟨true, true, true⟩

/-- The names of the sequence arguments in the order in which they are applied. -/
def names : List String := ["filter", "orderBy", "orderByDesc", "skip", "take"]

/-- A sequence argument is accepted. -/
def accepts (arguments : SequenceArguments) (name : String) : Bool :=
  if name = "filter" then arguments.filter
  else if name = "orderBy" || name = "orderByDesc" then arguments.sort
  else if name = "skip" || name = "take" then arguments.paging
  else false

end SequenceArguments

/-- A field of an object type. -/
structure FieldDefinition where
  name : String
  ty : Ty
  resolver : Resolver
  arguments : List ArgumentDefinition
  requirement? : Option Requirement
  sequenceArguments : SequenceArguments

/-- A field that shows a member of the host under its public name. -/
def FieldDefinition.ofMember (host : String) (ty : Ty) : FieldDefinition where
  name := Text.camelCase host
  ty := ty
  resolver := .member host
  arguments := []
  requirement? := none
  sequenceArguments := .none

/-- An object type of the host. -/
structure ObjectType where
  name : String
  requirement? : Option Requirement
  fields : Entries FieldDefinition

namespace ObjectType

/-- An object type with its fields; of two fields of one name the later one counts. -/
def ofFields (name : String) (requirement? : Option Requirement)
    (fields : List FieldDefinition) : ObjectType :=
  ⟨name, requirement?, Entries.ofList (fields.map fun field => (field.name, field))⟩

/-- A field by its public name. -/
def field? (type : ObjectType) (name : String) : Option FieldDefinition :=
  Entries.find? type.fields name

end ObjectType

/-- What a mutation routine sees and may change: the store of the host and the
record types of the session. -/
structure World where
  store : Value
  register : Register

/-- What a routine receives: a context, its bound arguments as a record, and the
services that it declared. -/
structure Invocation where
  context : Value
  arguments : Value
  services : List (String × Value)

/-- What a routine hands back: a value with its type, or an expression over a fresh
context with variables. -/
inductive MutationResult
  | value (value : Value) (ty : Ty)
  | requery (expression : String) (vars : Entries Value)

/-- The routine of a mutation. What it has changed stays changed if it fails. -/
abbrev Routine := Invocation → EStateM String World MutationResult

/-- A mutation. -/
structure Mutation where
  name : String
  contextTy : Ty
  arguments : List ArgumentDefinition
  services : List String
  requirement? : Option Requirement
  resultTy : Ty
  routine : Routine

/-- A mutation under the public spelling of its name and of its arguments. -/
def Mutation.publish (mutation : Mutation) : Mutation :=
  { mutation with
    name := Text.camelCase mutation.name
    arguments := mutation.arguments.map fun argument =>
      { argument with name := Text.camelCase argument.name } }

/-- The types, enumerations and mutations of a host. An enumeration stands under its own
name. -/
structure Schema where
  queryType : String
  types : Entries ObjectType
  enums : Entries EnumType
  mutations : Entries Mutation
  enumNames : ∀ entry ∈ enums, entry.2.name = entry.1

namespace Schema

/-- The type of the context in which queries run. -/
def contextTy (schema : Schema) : Ty :=
  .object schema.queryType

/-- An object type by its name. -/
def type? (schema : Schema) (name : String) : Option ObjectType :=
  Entries.find? schema.types name

/-- A field of an object type. -/
def field? (schema : Schema) (type field : String) : Option FieldDefinition :=
  (schema.type? type).bind fun type => type.field? field

/-- An enumeration by its name. -/
def enum? (schema : Schema) (name : String) : Option EnumType :=
  Entries.find? schema.enums name

/-- A mutation by its public name. -/
def mutation? (schema : Schema) (name : String) : Option Mutation :=
  Entries.find? schema.mutations name

/-- A schema from its parts. The query type gets no fields if it is not among the
types, and mutations without a context type run in the context of queries. -/
def ofParts (queryType : String) (enums : List EnumType) (types : List ObjectType)
    (mutations : List Mutation) : Schema :=
  let types := Entries.ofList (types.map fun type => (type.name, type))
  let inContext (mutation : Mutation) : Mutation :=
    if mutation.contextTy = .any then { mutation with contextTy := .object queryType }
    else mutation
  { queryType
    types :=
      if Entries.contains types queryType then types
      else Entries.insert types queryType ⟨queryType, none, []⟩
    enums := Entries.ofList (enums.map fun enum => (enum.name, enum))
    mutations :=
      Entries.ofList (mutations.map fun mutation => (mutation.name, inContext mutation))
    enumNames := by
      intro entry hentry
      obtain ⟨enum, _, rfl⟩ := List.mem_map.mp (Entries.mem_of_mem_ofList hentry)
      rfl }

/-- The schema with a query type that has no fields. -/
def empty : Schema := ofParts "Query" [] [] []

end Schema

/-- Finds the services of a list of names, or the first one that is missing. -/
def Services.resolve (services : Services) (names : List String) :
    Except String (List (String × Value)) :=
  names.mapM fun name =>
    match Entries.find? services name with
    | some service => .ok (name, service)
    | none => .error name

end TypedQuery
