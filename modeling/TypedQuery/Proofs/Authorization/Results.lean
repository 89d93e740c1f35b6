import TypedQuery.Proofs.Document.Progress
import TypedQuery.Proofs.Authorization.Exact

/-!
# Requirements of the types of results

The type of what a field results in is checked after the field has been compiled and before what is
selected on it. The check looks at an object type through one list. If the caller does not meet the
requirement of that type, the field is denied at its own path, where nothing else that fails denies
a type.
-/

namespace TypedQuery

open Halting

/-- The object type of the values that are found in values of a type, in lists of any depth. -/
def Ty.innerObject? : Ty → Option String
  | .object name => some name
  | .nullable inner => inner.innerObject?
  | .list element => element.innerObject?
  | _ => none

namespace Schema

variable {schema : Schema} {claims : Claims} {name : String} {unmet : List (List String)} {ty : Ty}

/-- A caller may not see the objects of a type: it has a requirement with unmet groups. -/
def Refuses (schema : Schema) (claims : Claims) (name : String) (unmet : List (List String)) :
    Prop :=
  ∃ type requirement, schema.type? name = some type ∧ type.requirement? = some requirement ∧
    ¬requirement.Holds claims ∧ unmet = requirement.unmet claims

/-- The check of a type is that of the object type it gives, if there is one. -/
theorem authorizeTy_eq :
    schema.authorizeTy claims ty =
      match ty.objectName? with
      | some name =>
        match schema.type? name with
        | some type => authorize name type.requirement? claims
        | none => .ok ()
      | none => .ok () := by
  unfold authorizeTy Ty.objectName?
  cases ty.underlying with
  | list element =>
    dsimp only
    cases element.underlying <;> rfl
  | _ => rfl

/-- The check of a type refuses the caller exactly where it finds a type that he may not see. -/
theorem authorizeTy_eq_unauthorized (hrefuses : schema.Refuses claims name unmet) :
    schema.authorizeTy claims ty = .error (.unauthorized name unmet) ↔
      ty.objectName? = some name := by
  obtain ⟨type, requirement, htype, hrequirement, hholds, rfl⟩ := hrefuses
  have hdenied : authorize name type.requirement? claims =
      .error (.unauthorized name (requirement.unmet claims)) := by
    unfold authorize
    rw [hrequirement]
    dsimp only
    rw [if_neg fun h => hholds (holds_iff_unmet.mpr h)]
  rw [authorizeTy_eq]
  cases hname : ty.objectName? with
  | none => exact ⟨nofun, nofun⟩
  | some found =>
    dsimp only
    constructor
    · intro h
      cases hfound : schema.type? found with
      | none =>
        rw [hfound] at h
        cases h
      | some other =>
        rw [hfound] at h
        unfold authorize at h
        dsimp only at h
        split at h
        · cases h
        · split at h
          · cases h
          · rw [(CompileFault.unauthorized.inj (Except.error.inj h)).1]
    · rintro ⟨⟩
      rw [htype]
      exact hdenied

end Schema

/-- A failure that is not the denial of a type at a path. -/
def FieldFailure.Elsewhere (path : List String) (failure : FieldFailure) : Prop :=
  failure.path = path → ∀ name unmet, failure.fault ≠ .unauthorized name unmet

namespace Scope

variable {scope : Scope} {capture : Capture} {claims : Claims}

/-- The node of a field with the arguments of a document, before its type is checked. -/
def resultNode (scope : Scope) (capture : Capture) (claims : Claims) (parent : Node)
    (name : String) (arguments : List (String × Argument)) : Compile Node :=
  match parent.ty.underlying with
  | .object type => scope.compileObjectField capture claims parent type name arguments
  | _ =>
    if arguments.isEmpty then scope.resolve (scope.fieldCompiler capture) parent name
    else Halting.fail (.argument name (.noArguments parent.ty))

/-- The type of the node of a field is checked, whatever is selected on it. -/
theorem compileBareField_eq (parent : Node) (name : String)
    (arguments : List (String × Argument)) :
    scope.compileBareField capture claims parent name arguments = (do
      let node ← scope.resultNode capture claims parent name arguments
      Halting.ofExcept (scope.schema.authorizeTy claims node.ty)
      return node) := by
  unfold compileBareField resultNode
  cases parent.ty.underlying with
  | object type => rfl
  | _ =>
    dsimp only
    split
    · rfl
    · rfl

/-- A field that waits gives values of a type. -/
inductive Waiting.Gives (scope : Scope) (capture : Capture) (claims : Claims) : Waiting → Ty → Prop
  | field {path : List String} {parent node : Node} {name : String} {alias? : Option String}
      {arguments : List (String × Argument)} {selections : List Selection} {position : Position}
      {session between : Session}
      (hnode : scope.resultNode capture claims parent name arguments session = .ok node between) :
      Gives scope capture claims
        ⟨path, parent, .field name alias? arguments selections position, session⟩ node.ty

/-- The path of what is selected, from the root of the document. -/
def Waiting.fieldPath (waiting : Waiting) : List String :=
  waiting.path ++ waiting.selection.step

/-- Selections fail below the path of their parent, if the caller may not see something. -/
theorem compileColumns_elsewhere (path : List String) (parent : Node)
    (selections : List Selection) (node : Node) (columns : Entries Plan) :
    FailsWith (scope.compileColumns capture claims path parent selections node columns)
      (FieldFailure.Elsewhere path) := by
  induction selections generalizing node columns with
  | nil =>
    unfold compileColumns
    exact .pure _
  | cons selection rest ih =>
    unfold compileColumns
    refine .bind ?_ fun child => ih _ _
    cases selection with
    | spread fragment position =>
      unfold compileSelection
      exact .fail fun _ => nofun
    | field name alias? arguments selections position =>
      refine (compileSelection_fails path parent _).mono fun failure hunder hpath => ?_
      have hlength := hunder.length_le
      rw [hpath] at hlength
      rw [List.length_append] at hlength
      exact absurd hlength (by simp [Selection.step])

/-- So does a selection set. -/
theorem selectOn_elsewhere (source : Node) (path : List String) (selections : List Selection) :
    FailsWith (selectOn source path (scope.recordOf capture claims path selections))
      (FieldFailure.Elsewhere path) := by
  unfold selectOn
  refine .bind (.ofExcept fun failure hfailure _ => ?_) fun found => ?_
  · unfold selectedTy at hfailure
    split at hfailure
    · cases hfailure
    · split at hfailure
      · cases hfailure
      · cases hfailure
        exact nofun
  · refine .bind (Run.freshName_fails _) fun name => .bind ?_ fun record => .pure _
    exact .bind (compileColumns_elsewhere _ _ _ _ _) fun found =>
      .bind (Run.recordType_fails _ _) fun _ => .pure _

/-- A check of a type and what comes after it deny a type at a path exactly where the check does, if
what comes after it fails elsewhere. -/
theorem check_denied_iff {α : Type} {check : Except CompileFault Unit} {path : List String}
    {rest : Run FieldFailure α} (hrest : FailsWith rest (FieldFailure.Elsewhere path))
    {session : Session} {name : String} {unmet : List (List String)} :
    (∃ final, (do
        Halting.ofExcept (check.mapError (FieldFailure.mk · path))
        rest) session = .error (.fault ⟨.unauthorized name unmet, path⟩) final) ↔
      check = .error (.unauthorized name unmet) := by
  cases check with
  | error fault =>
    constructor
    · rintro ⟨_, heq⟩
      cases heq
      rfl
    · rintro ⟨⟩
      exact ⟨session, rfl⟩
  | ok checked =>
    refine ⟨?_, nofun⟩
    rintro ⟨final, heq⟩
    exact absurd rfl (hrest _ _ _ heq rfl name unmet)

/-- A field of a query is compiled in three steps: its node, the check of its type, its record. -/
theorem compileSelection_checks (path : List String) (parent : Node) (name : String)
    (alias? : Option String) (arguments : List (String × Argument)) (selections : List Selection)
    (position : Position) :
    scope.compileSelection capture claims path parent
        (.field name alias? arguments selections position) = (do
      let node ← (scope.resultNode capture claims parent name arguments).mapFault
        (⟨·, path ++ [alias?.getD name]⟩)
      Halting.ofExcept ((scope.schema.authorizeTy claims node.ty).mapError
        (⟨·, path ++ [alias?.getD name]⟩))
      if selections.isEmpty then
        return node
      else
        selectOn node (path ++ [alias?.getD name])
          (scope.recordOf capture claims (path ++ [alias?.getD name]) selections)) := by
  rw [compileSelection_field, compileBareField_eq, mapFault_bind, bind_assoc]
  congr 1
  funext node
  cases scope.schema.authorizeTy claims node.ty with
  | ok checked => rfl
  | error fault => rfl

variable {waiting : Waiting} {ty : Ty} {name : String} {unmet : List (List String)}

/-- A field of a query is denied exactly where the check of its type refuses the caller. -/
theorem Waiting.Gives.denied_iff (h : waiting.Gives scope capture claims ty)
    (hrefuses : scope.schema.Refuses claims name unmet) :
    (∃ final, waiting.compile scope capture claims =
        .error (.fault ⟨.unauthorized name unmet, waiting.fieldPath⟩) final) ↔
      ty.objectName? = some name := by
  rw [← Schema.authorizeTy_eq_unauthorized hrefuses]
  cases h with
  | field hnode =>
    unfold Waiting.compile
    rw [compileSelection_checks, bind_of_ok (mapFault_eq_ok.mpr hnode)]
    refine check_denied_iff ?_
    split
    · exact .pure _
    · exact selectOn_elsewhere _ _ _

end Scope

end TypedQuery
