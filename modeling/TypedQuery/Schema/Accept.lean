import TypedQuery.Calendar.Reader
import TypedQuery.Schema.Basic

/-!
# Accepting arguments

A supplied value becomes a value of the declared type, or it is refused. Unlike a
conversion inside a query, this never reads numbers from texts.
-/

namespace TypedQuery

namespace Schema

/-- The value of a declared type that a supplied value stands for. -/
def accept (schema : Schema) : Ty → Value → Except AcceptFault Value
  | .any, value => .ok value
  | .nullable inner, value => if value.isNull then .ok .null else accept schema inner value
  | ty, .null => if ty.admitsNull then .ok .null else .error (.nullAt ty)
  | .boolean, .boolean b => .ok (.boolean b)
  | .string, .text s => .ok (.text s)
  | .int kind, value =>
    match value.integer?.bind fun n => Value.ofInt? n kind with
    | some result => .ok result
    | none => .error (.notOfKind value kind)
  | .decimal, value =>
    match value.decimal? with
    | some d => .ok (.decimal d)
    | none => .error (.mismatch value .decimal)
  | .float, value =>
    match value.float? with
    | some x => .ok (.float x)
    | none => .error (.mismatch value .float)
  | .guid, .guid g => .ok (.guid g)
  | .guid, .text s =>
    match Guid.read s.toList with
    | .ok g => .ok (.guid g)
    | .error fault => .error (.notGuid s fault)
  | .dateTime, .dateTime t => .ok (.dateTime t)
  | .dateTime, .text s =>
    match DateTime.read? s with
    | some t => .ok (.dateTime t)
    | none => .error (.notDateTime s)
  | .enum name, value =>
    match schema.enum? name with
    | none => .error (.undeclaredEnum name)
    | some enum =>
      match enum.convert? value with
      | some result => .ok result
      | none => .error (.mismatch value (.enum name))
  | .list element, .list items => do
    return .list (← items.mapM fun item => accept schema element item)
  | .object _, .object type members => .ok (.object type members)
  | .object _, .record fields values => .ok (.record fields values)
  | .record _, .object type members => .ok (.object type members)
  | .record _, .record fields values => .ok (.record fields values)
  | ty, value => .error (.mismatch value ty)

/-- The value that an argument is bound to. Of several supplied values the last one
counts. -/
def bindOne (schema : Schema) (supplied : List (String × Value)) (argument : ArgumentDefinition) :
    Except ArgumentFault Value :=
  match supplied.reverse.lookup argument.name with
  | some value =>
    match schema.accept argument.ty value with
    | .ok result => .ok result
    | .error fault => .error (.unacceptable argument.name fault)
  | none =>
    match argument.default? with
    | some value => .ok value
    | none => if argument.ty.admitsNull then .ok .null else .error (.missing argument.name)

/-- Binds supplied values to the arguments that a target declares. -/
def bindArguments (schema : Schema) (target : String) (definitions : List ArgumentDefinition)
    (supplied : List (String × Value)) : Except CompileFault (Entries Value) :=
  match supplied.find? fun entry => !definitions.any fun d => d.name = entry.1 with
  | some (name, _) => .error (.argument target (.unknown name))
  | none => do
    let bound ← definitions.mapM fun argument =>
      match schema.bindOne supplied argument with
      | .ok value => .ok (argument.name, value)
      | .error fault => .error (.argument target fault)
    return Entries.ofList bound

/-- Checks the requirement of a target. Without a requirement everyone passes. -/
def authorize (target : String) (requirement? : Option Requirement) (claims : Claims) :
    Except CompileFault Unit :=
  match requirement? with
  | none => .ok ()
  | some requirement =>
    if (requirement.unmet claims).isEmpty then .ok ()
    else .error (.unauthorized target (requirement.unmet claims))

end Schema

end TypedQuery
