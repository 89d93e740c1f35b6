import TypedQuery.Method.Arity
import TypedQuery.Source.Fault
import TypedQuery.Value.Text

/-!
# Failures of compiling

The causes for which a text that may be well-formed does not compile.
-/

namespace TypedQuery

/-- Why a value is not accepted at a type. -/
inductive AcceptFault
  | mismatch (value : Value) (ty : Ty)
  | nullAt (ty : Ty)
  | notOfKind (value : Value) (kind : IntKind)
  | notGuid (text : String) (fault : Guid.ReadFault)
  | notDateTime (text : String)
  | undeclaredEnum (name : String)

/-- The wording of a value that is not accepted. -/
def AcceptFault.message (register : Register) : AcceptFault → String
  | mismatch value ty => "cannot convert " ++ value.display register ++ " to " ++ ty.text register
  | nullAt ty => "null is not allowed for " ++ ty.text register
  | notOfKind value kind => value.display register ++ " is not a valid " ++ kind.name
  | notGuid text fault => "'" ++ text ++ "' is not a valid Guid: " ++ fault.message
  | notDateTime text => "'" ++ text ++ "' is not a valid DateTime"
  | undeclaredEnum name => "enum " ++ name ++ " is not declared"

/-- Why an argument is invalid. -/
inductive ArgumentFault
  | unknown (argument : String)
  | missing (argument : String)
  | unacceptable (argument : String) (fault : AcceptFault)
  | ofVariable (fault : AcceptFault)
  | requiredVariable (typeName : String)
  | noArguments (parent : Ty)
  | notInteger
  | notExpression
  | notMember (member enum : String)
  | notInRange (value : Value)
  | notShaped (text : String) (target : Ty)

/-- The wording of an invalid argument. -/
def ArgumentFault.message (register : Register) : ArgumentFault → String
  | unknown argument => "unknown argument '" ++ argument ++ "'"
  | missing argument => "missing required argument '" ++ argument ++ "'"
  | unacceptable argument fault => "argument '" ++ argument ++ "': " ++ fault.message register
  | ofVariable fault => fault.message register
  | requiredVariable typeName => "variable of type " ++ typeName ++ " is required"
  | noArguments parent => parent.text register ++ " fields take no arguments"
  | notInteger => "expected an integer"
  | notExpression => "expected an expression string"
  | notMember member enum => "'" ++ member ++ "' is not a member of " ++ enum
  | notInRange value => value.display register ++ " is out of range"
  | notShaped text target => "'" ++ text ++ "' is not a valid " ++ target.text register

/-- A place at which only some types may stand. -/
inductive Unsupported
  | sortKey (ty : Ty) (method : String)
  | selection (ty : Ty)
  | listed (ty : Ty)
  | listedExpression
  | mixedList

/-- The wording of a type at the wrong place. -/
def Unsupported.message (register : Register) : Unsupported → String
  | sortKey ty method =>
    "Type " ++ ty.text register ++ " is not supported as a sort key of '" ++ method ++ "'"
  | selection ty => "Type " ++ ty.text register ++ " is not supported with a selection set"
  | listed ty => "Type " ++ ty.text register ++ " is not supported in the list of 'in'"
  | listedExpression => "Type a non-literal expression is not supported in the list of 'in'"
  | mixedList => "Type a mixed list is not supported in the list of 'in'"

/-- The type on which a field was looked for. -/
inductive FieldOwner
  | type (ty : Ty)
  | mutations

/-- The name of the type on which a field was looked for. -/
def FieldOwner.text (register : Register) : FieldOwner → String
  | type ty => ty.text register
  | mutations => "Mutation"

/-- Why a text does not compile. -/
inductive CompileFault
  | malformed (error : SyntaxError)
  | unknownField (field : String) (owner : FieldOwner)
  | unknownMethod (method : String) (owner : Ty)
  | unknownVariable (name : String)
  | unknownFragment (name : String)
  | fragmentCycle (name : String)
  | unknownOperation (name? : Option String)
  | arity (method : String) (expected : Arity) (actual : Nat)
  | typeMismatch (operation : String) (left right : Ty)
  | conditionType (test : String) (actual : Ty)
  | predicateType (method : String) (actual : Ty)
  | noSequence (method : String) (owner : Ty)
  | unsupported (what : Unsupported)
  | argument (target : String) (fault : ArgumentFault)
  | missingService (service : String)
  | unauthorized (target : String) (unmet : List (List String))

/-- The name of the kind of a failure, for programs that tell failures apart. -/
def CompileFault.kind : CompileFault → String
  | malformed _ => "Parse"
  | unknownField _ _ => "UnknownField"
  | unknownMethod _ _ => "UnknownMethod"
  | unknownVariable _ => "UnknownVariable"
  | unknownFragment _ => "UnknownFragment"
  | fragmentCycle _ => "FragmentCycle"
  | unknownOperation _ => "UnknownOperation"
  | arity _ _ _ => "Arity"
  | typeMismatch _ _ _ => "TypeMismatch"
  | conditionType _ _ => "ConditionType"
  | predicateType _ _ => "PredicateType"
  | noSequence _ _ => "NoSequenceContext"
  | unsupported _ => "UnsupportedType"
  | argument _ _ => "InvalidArgument"
  | missingService _ => "MissingService"
  | unauthorized _ _ => "Authorization"

/-- The wording of a failure. -/
def CompileFault.message (register : Register) : CompileFault → String
  | malformed error => "Parse error: " ++ error.message
  | unknownField field owner =>
    "Field '" ++ field ++ "' not found on type " ++ owner.text register
  | unknownMethod method owner =>
    "Method '" ++ method ++ "' not found on type " ++ owner.text register
  | unknownVariable name => "Variable '$" ++ name ++ "' is not defined"
  | unknownFragment name => "Fragment '" ++ name ++ "' is not defined"
  | fragmentCycle name => "Fragment '" ++ name ++ "' spreads itself"
  | unknownOperation name? =>
    "Operation '" ++ name?.getD "<anonymous>" ++ "' not found in document"
  | arity method expected actual =>
    "Method '" ++ method ++ "' expects " ++ expected.text ++ " argument(s) but got " ++
      toString actual
  | typeMismatch operation left right =>
    "Operator '" ++ operation ++ "' cannot be applied to " ++ left.text register ++ " and " ++
      right.text register
  | conditionType test actual =>
    "Conditional test '" ++ test ++ "' must be Boolean but is " ++ actual.text register
  | predicateType method actual =>
    "Predicate of '" ++ method ++ "' must be Boolean but is " ++ actual.text register
  | noSequence method owner =>
    "Method '" ++ method ++ "' needs a sequence but " ++ owner.text register ++ " contains none"
  | unsupported what => what.message register
  | argument target fault =>
    "Invalid argument for '" ++ target ++ "': " ++ fault.message register
  | missingService service => "Service " ++ service ++ " is not registered"
  | unauthorized target _ => "Not authorized to access '" ++ target ++ "'"

end TypedQuery
