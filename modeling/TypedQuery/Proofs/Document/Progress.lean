import TypedQuery.Proofs.Document.Paths
import TypedQuery.Proofs.Lockstep.Renaming

/-!
# How far the compilation of a selection comes

Selections are compiled one after another, a field before what is selected on its value. The
compilation of a field comes to a selection inside of it if everything before that selection
compiles, and if it fails there, the field fails with that failure.
-/

namespace TypedQuery

open Halting

/-- The next parameter of a session, for the values of a type. -/
def Session.parameter (session : Session) (item : Ty) : Node :=
  .ofPlan (.param item (parameterName session.parameters))

/-- The session after one more parameter has got its name. -/
def Session.named (session : Session) : Session :=
  { session with parameters := session.parameters + 1 }

namespace Scope

variable {scope : Scope} {capture : Capture} {claims : Claims}

/-- A selection that waits to be compiled: the path of its parent, the node of its parent, and the
session that the selections before it have left. -/
structure Waiting where
  path : List String
  parent : Node
  selection : Selection
  session : Session

/-- The compilation of a selection that waits. -/
def Waiting.compile (scope : Scope) (capture : Capture) (claims : Claims) (waiting : Waiting) :
    EStateM.Result (Halt FieldFailure) Session Node :=
  scope.compileSelection capture claims waiting.path waiting.parent waiting.selection
    waiting.session

/-- What is selected on the values of a node waits when the selections before it have been
compiled. -/
inductive Selects (scope : Scope) (capture : Capture) (claims : Claims) (path : List String)
    (node : Node) (session : Session) : List Selection → Waiting → Prop
  | mk {before after : List Selection} {selection : Selection} {item : Ty} {overItems : Bool}
      {record : Node} {columns : Entries Plan} {later : Session}
      (hitem : selectedTy node.ty = .ok (item, overItems))
      (hbefore : scope.compileColumns capture claims path (session.parameter item) before
        (session.parameter item) [] session.named = .ok (record, columns) later) :
      Selects scope capture claims path node session (before ++ selection :: after)
        ⟨path, session.parameter item, selection, later⟩

/-- The compilation of a selection comes to another one: to itself at first, and to one that is
selected on its value when the field has been compiled. -/
inductive ComesTo (scope : Scope) (capture : Capture) (claims : Claims) : Waiting → Waiting → Prop
  | here (waiting : Waiting) : ComesTo scope capture claims waiting waiting
  | inside {path : List String} {parent node : Node} {name : String} {alias? : Option String}
      {arguments : List (String × Argument)} {position : Position} {selections : List Selection}
      {session between : Session} {next target : Waiting}
      (hnode : scope.compileBareField capture claims parent name arguments session =
        .ok node between)
      (hselects : scope.Selects capture claims (path ++ [alias?.getD name]) node between selections
        next)
      (hinside : ComesTo scope capture claims next target) :
      ComesTo scope capture claims
        ⟨path, parent, .field name alias? arguments selections position, session⟩ target

/-- The record that selections on a value are compiled to. -/
def recordOf (scope : Scope) (capture : Capture) (claims : Claims) (path : List String)
    (selections : List Selection) (parameter : Node) : Run FieldFailure Node := do
  let (record, columns) ←
    scope.compileColumns capture claims path parameter selections parameter []
  columnsNode record columns

/-- A field is compiled without its selections at first, and then its record. -/
theorem compileSelection_field (path : List String) (parent : Node) (name : String)
    (alias? : Option String) (arguments : List (String × Argument)) (selections : List Selection)
    (position : Position) :
    scope.compileSelection capture claims path parent
        (.field name alias? arguments selections position) = (do
      let node ← (scope.compileBareField capture claims parent name arguments).mapFault
        (⟨·, path ++ [alias?.getD name]⟩)
      if selections.isEmpty then
        return node
      else
        selectOn node (path ++ [alias?.getD name])
          (scope.recordOf capture claims (path ++ [alias?.getD name]) selections)) := by
  unfold compileSelection
  cases selections with
  | nil => rfl
  | cons first rest => rfl

/-- Selections are compiled one after another. -/
theorem compileColumns_append (path : List String) (parent : Node)
    (before rest : List Selection) (node : Node) (columns : Entries Plan) :
    scope.compileColumns capture claims path parent (before ++ rest) node columns = (do
      let (record, columns) ← scope.compileColumns capture claims path parent before node columns
      scope.compileColumns capture claims path parent rest record columns) := by
  induction before generalizing node columns with
  | nil =>
    rw [List.nil_append, compileColumns, pure_bind]
  | cons selection more ih =>
    rw [List.cons_append, compileColumns, compileColumns, bind_assoc]
    congr 1
    funext child
    exact ih _ _

/-- A selection set fails where the record of the value, or of its items, does. -/
theorem selectOn_of_error {source : Node} {path : List String}
    {build : Node → Run FieldFailure Node} {session final : Session} {item : Ty} {overItems : Bool}
    {halt : Halt FieldFailure} (hitem : selectedTy source.ty = .ok (item, overItems))
    (hbuild : build (session.parameter item) session.named = .error halt final) :
    selectOn source path build session = .error halt final := by
  unfold selectOn
  refine (check_of_ok hitem).trans ?_
  exact (bind_of_ok rfl).trans (bind_of_error hbuild)

variable {path : List String} {node : Node} {session final : Session} {selections : List Selection}
  {start waiting target : Waiting} {halt : Halt FieldFailure}

/-- There is something to be selected. -/
theorem Selects.isEmpty_eq_false
    (h : scope.Selects capture claims path node session selections waiting) :
    selections.isEmpty = false := by
  cases h
  simp

/-- A selection set fails where a selection fails that waits in it. -/
theorem Selects.fails (h : scope.Selects capture claims path node session selections waiting)
    (hfails : waiting.compile scope capture claims = .error halt final) :
    selectOn node path (scope.recordOf capture claims path selections) session =
      .error halt final := by
  cases h with
  | mk hitem hbefore =>
    refine selectOn_of_error hitem (bind_of_error ?_)
    rw [compileColumns_append, bind_of_ok hbefore]
    dsimp only
    rw [compileColumns]
    exact bind_of_error hfails

/-- A field fails where a selection fails to which its compilation comes. -/
theorem ComesTo.fails (h : scope.ComesTo capture claims start target)
    (hfails : target.compile scope capture claims = .error halt final) :
    start.compile scope capture claims = .error halt final := by
  induction h with
  | here => exact hfails
  | @inside path parent node name alias? arguments position selections session between next target
      hnode hselects hinside ih =>
    unfold Waiting.compile
    rw [compileSelection_field, bind_of_ok (mapFault_eq_ok.mpr hnode), hselects.isEmpty_eq_false]
    exact hselects.fails (ih hfails)

end Scope

end TypedQuery
