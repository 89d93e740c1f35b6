import TypedQuery.Document.Selecting
import TypedQuery.Proofs.Computation

/-!
# The paths of failures

A failure is reported with a path that leads through the response names of fields. Whatever fails
while a field is compiled, the field itself or a selection in it at any depth, has a path that
starts with the path to the field. Nothing but its failures shows at which path it is compiled.
-/

namespace TypedQuery

open Halting

/-- The path of a failure starts with another path. -/
def FieldFailure.Under (path : List String) (failure : FieldFailure) : Prop :=
  path <+: failure.path

/-- The step from the path of a parent to that of a selection. A fragment is not on the way. -/
def Selection.step : Selection → List String
  | .spread _ _ => []
  | .field name alias? _ _ _ => [alias?.getD name]

namespace Scope

variable {scope : Scope} {capture : Capture} {claims : Claims} {path : List String}

/-- A record of columns has no failures. -/
theorem columnsNode_fails (node : Node) (columns : Entries Plan) :
    FailsWith (columnsNode node columns) (FieldFailure.Under path) :=
  .bind (Run.recordType_fails _ _) fun _ => .pure _

/-- A selection on a source fails under a path if the record that is built does. -/
theorem selectOn_fails {source : Node} {build : Node → Run FieldFailure Node}
    (hbuild : ∀ parameter, FailsWith (build parameter) (FieldFailure.Under path)) :
    FailsWith (selectOn source path build) (FieldFailure.Under path) := by
  unfold selectOn
  refine .bind (.ofExcept fun failure hfailure => ?_) fun found => ?_
  · cases hselected : selectedTy source.ty with
    | ok found =>
      rw [hselected] at hfailure
      cases hfailure
    | error fault =>
      rw [hselected] at hfailure
      cases hfailure
      exact List.prefix_refl _
  · exact .bind (Run.freshName_fails _) fun name => .bind (hbuild _) fun record => .pure _

mutual

/-- What fails in a field, itself or a selection in it, has a path under that of the field. -/
theorem compileSelection_fails (path : List String) (parent : Node) :
    (selection : Selection) →
      FailsWith (scope.compileSelection capture claims path parent selection)
        (FieldFailure.Under (path ++ selection.step))
  | .spread fragment _ => by
    unfold compileSelection Selection.step
    rw [List.append_nil]
    exact .fail (List.prefix_refl _)
  | .field name alias? arguments selections _ => by
    unfold compileSelection Selection.step
    refine .bind (.mapFault fun _ => List.prefix_refl _) fun node => ?_
    match selections with
    | [] => exact .pure node
    | first :: rest =>
      refine selectOn_fails fun parameter => .bind ?_ fun found => columnsNode_fails _ _
      exact compileColumns_fails _ parameter (first :: rest) parameter []

/-- What fails in selections has a path under that of their parent. -/
theorem compileColumns_fails (path : List String) (parent : Node) :
    (selections : List Selection) → (node : Node) → (columns : Entries Plan) →
      FailsWith (scope.compileColumns capture claims path parent selections node columns)
        (FieldFailure.Under path)
  | [], _, _ => by
    unfold compileColumns
    exact .pure _
  | selection :: rest, _, _ => by
    unfold compileColumns
    refine .bind ?_ fun child => compileColumns_fails path parent rest _ _
    exact (compileSelection_fails path parent selection).mono fun failure hunder =>
      (List.prefix_append _ _).trans hunder

end

end Scope

/-- The failure further down, below a path. -/
def FieldFailure.below (path : List String) (failure : FieldFailure) : FieldFailure :=
  { failure with path := path ++ failure.path }

namespace Scope

variable {scope : Scope} {capture : Capture} {claims : Claims}

/-- A selection set fails further down where its record does. -/
theorem selectOn_below (source : Node) (front path : List String)
    (build : Node → Run FieldFailure Node) :
    (selectOn source path build).mapFault (.below front) =
      selectOn source (front ++ path) fun parameter =>
        (build parameter).mapFault (.below front) := by
  have hname : (Run.freshName : Run FieldFailure String).mapFault (FieldFailure.below front) =
      Run.freshName := rfl
  unfold selectOn
  rw [mapFault_bind]
  cases selectedTy source.ty with
  | error fault => rfl
  | ok found =>
    refine (mapFault_bind Run.freshName _ _).trans ?_
    rw [hname]
    change _ = Run.freshName >>= fun name => do
      let record ← (build (.ofPlan (.param found.1 name))).mapFault (FieldFailure.below front)
      return source.join record (if found.2 then source.plan.project name record.plan
        else source.plan.given name record.plan)
    refine congrArg (Run.freshName >>= ·) (funext fun name => ?_)
    exact mapFault_bind (build (.ofPlan (.param found.1 name))) _ _

mutual

/-- A selection compiles at every path to the same, and its failures are further down. -/
theorem compileSelection_below (path : List String) (parent : Node) :
    (selection : Selection) → scope.compileSelection capture claims path parent selection =
      (scope.compileSelection capture claims [] parent selection).mapFault (.below path)
  | .spread fragment _ => by
    unfold compileSelection
    exact congrArg (fun front => Halting.fail (FieldFailure.mk (.unknownFragment fragment) front))
      (List.append_nil path).symm
  | .field name alias? arguments selections _ => by
    have hsteps : FieldFailure.below path ∘ .below ([] ++ [alias?.getD name]) =
        .below (path ++ [alias?.getD name]) := by
      funext failure
      simp [FieldFailure.below]
    unfold compileSelection
    dsimp only
    rw [mapFault_bind, mapFault_mapFault]
    refine congrArg (_ >>= ·) (funext fun node => ?_)
    match selections with
    | [] => rfl
    | first :: rest =>
      refine Eq.trans ?_ (selectOn_below node path _ _).symm
      refine congrArg (selectOn node _) (funext fun parameter => ?_)
      rw [mapFault_bind, compileColumns_below (path ++ _), compileColumns_below ([] ++ _),
        mapFault_mapFault, hsteps]
      rfl

/-- The same for selections. -/
theorem compileColumns_below (path : List String) (parent : Node) :
    (selections : List Selection) → (node : Node) → (columns : Entries Plan) →
      scope.compileColumns capture claims path parent selections node columns =
        (scope.compileColumns capture claims [] parent selections node columns).mapFault
          (.below path)
  | [], _, _ => by
    unfold compileColumns
    rfl
  | selection :: rest, _, _ => by
    unfold compileColumns
    rw [mapFault_bind, compileSelection_below path parent selection]
    refine congrArg (_ >>= ·) (funext fun child => ?_)
    exact compileColumns_below path parent rest _ _

end

end Scope

end TypedQuery
