import TypedQuery.Compile.Session
import TypedQuery.Expr.Basic
import TypedQuery.Plan.Graft
import TypedQuery.Text.Case

/-!
# Methods

A method has a name, a number of arguments, the context in which its arguments are
compiled, and a rule that builds its plan. Names are looked up without regard to
case.
-/

namespace TypedQuery

/-- The context in which the arguments of a method are compiled: that of the call, or
an item of the receiver. -/
inductive ArgumentContext
  | caller
  | element
deriving DecidableEq

/-- An argument of a call: the expression, and its compilation in a context. -/
structure CallArgument where
  expr : Expr
  compile : Node → Compile Node

/-- What the rule of a method is given. -/
structure MethodCall where
  name : String
  receiver : Node
  inner : Node
  arguments : List CallArgument

namespace MethodCall

/-- Compiles an argument in the context of the arguments. -/
def compileArgument (call : MethodCall) (index : Nat) : Compile Node :=
  match call.arguments[index]? with
  | some argument => argument.compile call.inner
  | none => Halting.fail (.arity call.name (.exactly (index + 1)) call.arguments.length)

/-- The parameter that stands for an item of the receiver. -/
def elementName (call : MethodCall) : String :=
  match call.inner.plan with
  | .param _ name => name
  | _ => ""

end MethodCall

/-- A method. -/
structure Method where
  name : String
  arity : Arity
  context : ArgumentContext
  onSequence : Bool
  build : MethodCall → Compile Node

/-- The method needs a list as its receiver. -/
def Method.needsSequence (method : Method) : Bool :=
  method.context = .element || method.onSequence

/-- Checks the number of arguments of a call. -/
def Method.checkArity (method : Method) (count : Nat) : Except CompileFault Unit :=
  if method.arity.admits count then .ok () else .error (.arity method.name method.arity count)

/-- Methods under their names in small letters. -/
structure MethodLibrary where
  methods : Entries Method

namespace MethodLibrary

/-- The library without methods. -/
def empty : MethodLibrary := ⟨[]⟩

/-- Adds a method, in the place of one of the same name if there is one. -/
def register (library : MethodLibrary) (method : Method) : MethodLibrary :=
  ⟨Entries.insert library.methods (Text.smallText method.name) method⟩

/-- The library of a list of methods. -/
def ofList (methods : List Method) : MethodLibrary :=
  methods.foldl register empty

/-- A method by its name in any case. -/
def find? (library : MethodLibrary) (name : String) : Option Method :=
  Entries.find? library.methods (Text.smallText name)

/-- The names of the methods as they were registered. -/
def names (library : MethodLibrary) : List String :=
  (Entries.values library.methods).map Method.name

end MethodLibrary

/-- Applies a method to a receiver that is a list if the method needs one. -/
def Method.apply (method : Method) (receiver caller : Node) (arguments : List CallArgument) :
    Compile Node :=
  match method.context with
  | .caller => method.build ⟨method.name, receiver, caller, arguments⟩
  | .element =>
    match receiver.ty.element? with
    | none => Halting.fail (.noSequence method.name receiver.ty)
    | some element => do
      let name ← Run.freshName
      method.build ⟨method.name, receiver, .ofPlan (.param element name), arguments⟩

/-- Calls a method by its name. A method that needs a list is grafted at the nearest
list of the receiver's chain. -/
def MethodLibrary.call (library : MethodLibrary) (receiver : Node) (name : String)
    (arguments : List CallArgument) (caller : Node) : Compile Node :=
  match library.find? name with
  | none => Halting.fail (.unknownMethod name receiver.ty)
  | some method => do
    Halting.ofExcept (method.checkArity arguments.length)
    if method.needsSequence && !receiver.ty.isSequence then
      receiver.graft method.name fun list => method.apply list caller arguments
    else method.apply receiver caller arguments

end TypedQuery
