import TypedQuery.Document.Compiled
import TypedQuery.Proofs.Entries

/-!
# Schemas without requirements

What is left of a schema when every requirement is removed. Requirements are looked at where
documents select fields and nowhere else: variables, arguments, expressions and the values of
fields are the same on both schemas.
-/

namespace TypedQuery

/-- The field without its requirement. -/
def FieldDefinition.unguarded (field : FieldDefinition) : FieldDefinition :=
  { field with requirement? := none }

/-- The type without its requirement and those of its fields. -/
def ObjectType.unguarded (type : ObjectType) : ObjectType :=
  { type with
    requirement? := none
    fields := type.fields.mapValues FieldDefinition.unguarded }

/-- The mutation without its requirement. -/
def Mutation.unguarded (mutation : Mutation) : Mutation :=
  { mutation with requirement? := none }

/-- The schema without requirements. -/
def Schema.unguarded (schema : Schema) : Schema :=
  { schema with
    types := schema.types.mapValues ObjectType.unguarded
    mutations := schema.mutations.mapValues Mutation.unguarded }

/-- The scope on the schema without requirements. -/
def Scope.unguarded (scope : Scope) : Scope :=
  { scope with schema := scope.schema.unguarded }

/-- The host with the schema without requirements. -/
def Host.unguarded (host : Host) : Host :=
  { host with schema := host.schema.unguarded }

namespace Schema

variable {schema : Schema}

/-- Without requirements a type is found under its name as with them. -/
theorem type?_unguarded (name : String) :
    schema.unguarded.type? name = (schema.type? name).map ObjectType.unguarded :=
  Entries.find?_mapValues

/-- Without requirements a field is found under its name as with them. -/
theorem field?_unguarded (type name : String) :
    schema.unguarded.field? type name =
      (schema.field? type name).map FieldDefinition.unguarded := by
  unfold field?
  rw [type?_unguarded]
  cases schema.type? type with
  | none => rfl
  | some type => exact Entries.find?_mapValues

/-- Values are accepted without requirements as with them. -/
theorem accept_unguarded :
    (ty : Ty) → (value : Value) → schema.unguarded.accept ty value = schema.accept ty value
  | .nullable inner, value => by
    unfold accept
    rw [accept_unguarded inner]
  | .list element, value => by
    cases value with
    | list items =>
      unfold accept
      simp only [accept_unguarded element]
    | _ => rfl
  | .any, value | .null, value | .boolean, value | .int _, value | .float, value
  | .decimal, value | .string, value | .guid, value | .dateTime, value | .enum _, value
  | .object _, value | .record _, value => by
    cases value <;> rfl

/-- Arguments are bound without requirements as with them. -/
theorem bindArguments_unguarded (target : String) (definitions : List ArgumentDefinition)
    (supplied : List (String × Value)) :
    schema.unguarded.bindArguments target definitions supplied =
      schema.bindArguments target definitions supplied := by
  unfold bindArguments bindOne
  simp only [accept_unguarded]

/-- The types of variables are the same without requirements. -/
theorem headerTy_unguarded (fuel : Nat) (text : List Char) :
    schema.unguarded.headerTy fuel text = schema.headerTy fuel text := by
  have hnamed : ∀ name, schema.unguarded.namedTy name = schema.namedTy name := by
    intro name
    unfold namedTy
    rw [type?_unguarded, Option.isSome_map]
    rfl
  induction fuel generalizing text with
  | zero => rfl
  | succ fuel ih =>
    unfold headerTy
    simp only [ih, hnamed]

/-- Variables are bound to the same values. -/
theorem bindVariables_unguarded (definitions : List VariableDefinition) (supplied : Entries Value) :
    schema.unguarded.bindVariables definitions supplied =
      schema.bindVariables definitions supplied := by
  unfold bindVariables bindVariable
  simp only [accept_unguarded, headerTy_unguarded]

end Schema

/-- Two compilations of fields are the same, but that the first one sees no requirements. -/
def FieldCompiler.Ignores (fields fields' : FieldCompiler) : Prop :=
  ∀ (parent : Node) (field : FieldDefinition) (bound : Entries Value),
    fields parent field.unguarded bound = fields' parent field bound

namespace Scope

variable {scope : Scope} {capture : Capture} {fields fields' : FieldCompiler}

/-- Names compile without requirements as with them. -/
theorem resolve_unguarded (hfields : fields.Ignores fields') (parent : Node) (name : String) :
    scope.unguarded.resolve fields parent name = scope.resolve fields' parent name := by
  unfold resolve Scope.unguarded
  dsimp only
  split
  · rw [Schema.field?_unguarded]
    cases scope.schema.field? _ name with
    | none => rfl
    | some field =>
      change (do
        let bound ← Halting.ofExcept
          (scope.schema.unguarded.bindArguments name field.arguments [])
        fields parent field.unguarded bound : Compile Node) = _
      rw [Schema.bindArguments_unguarded]
      simp only [hfields parent field]
  · rfl
  · rfl
  · rfl

mutual

/-- Expressions compile to the same nodes. -/
theorem compileExpr_unguarded (hfields : fields.Ignores fields') (context : Node) :
    (expr : Expr) → scope.unguarded.compileExpr capture fields context expr =
      scope.compileExpr capture fields' context expr
  | .literal value => by
    unfold compileExpr
    rfl
  | .var name => by
    unfold compileExpr
    rfl
  | .identifier name => by
    unfold compileExpr
    exact resolve_unguarded hfields context name
  | .access object name => by
    unfold compileExpr
    simp only [compileExpr_unguarded hfields context object, resolve_unguarded hfields]
  | .invoke method arguments => by
    unfold compileExpr
    rw [callArguments_unguarded hfields arguments]
    rfl
  | .call receiver method arguments => by
    unfold compileExpr
    rw [compileExpr_unguarded hfields context receiver, callArguments_unguarded hfields arguments]
    rfl
  | .binary op left right => by
    unfold compileExpr
    rw [compileExpr_unguarded hfields context left, compileExpr_unguarded hfields context right]
    rfl
  | .conditional test testText yes no => by
    unfold compileExpr
    rw [compileExpr_unguarded hfields context test, compileExpr_unguarded hfields context yes,
      compileExpr_unguarded hfields context no]

/-- Arguments of calls are the same without requirements. -/
theorem callArguments_unguarded (hfields : fields.Ignores fields') :
    (arguments : List Expr) → scope.unguarded.callArguments capture fields arguments =
      scope.callArguments capture fields' arguments
  | [] => by
    unfold callArguments
    rfl
  | expr :: rest => by
    unfold callArguments
    simp only [compileExpr_unguarded hfields _ expr, callArguments_unguarded hfields rest]

end

/-- Fields have the same values at every depth, whatever variables their sources see. -/
theorem compileField_unguarded (capture : Capture) (schema : Schema) (methods : MethodLibrary)
    (depth : Nat) : ∀ vars : Entries Value,
      (compileField capture schema.unguarded methods depth vars).Ignores
        (compileField capture schema methods depth vars) := by
  induction depth with
  | zero => exact fun vars parent field bound => rfl
  | succ depth ih =>
    intro vars parent field bound
    let inner : Scope := ⟨schema, methods, Entries.extend vars bound, depth⟩
    have hsource : inner.unguarded.compileText capture
          (compileField capture schema.unguarded methods depth inner.vars) parent =
        inner.compileText capture (compileField capture schema methods depth inner.vars)
          parent := by
      funext source
      unfold compileText
      simp only [compileExpr_unguarded (ih _)]
    exact congrArg (compileResolver · parent field) hsource

/-- The fields of the schema compile without requirements as with them, seen by expressions. -/
theorem fieldCompiler_unguarded :
    (scope.unguarded.fieldCompiler capture).Ignores (scope.fieldCompiler capture) :=
  compileField_unguarded capture scope.schema scope.methods scope.depth scope.vars

/-- Sequence arguments make the same calls. -/
theorem applySequence_unguarded (arguments : List (String × Value)) (caller : Node)
    (names : List String) (node : Node) :
    scope.unguarded.applySequence capture arguments caller names node =
      scope.applySequence capture arguments caller names node := by
  have hcall : scope.unguarded.callMethod capture = scope.callMethod capture := by
    funext receiver method arguments caller
    unfold callMethod
    rw [callArguments_unguarded fieldCompiler_unguarded]
    rfl
  induction names generalizing node with
  | nil => rfl
  | cons name rest ih =>
    unfold applySequence
    simp only [ih, hcall]

end Scope

end TypedQuery
