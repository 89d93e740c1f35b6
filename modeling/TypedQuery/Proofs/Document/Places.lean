import TypedQuery.Proofs.Authorization.Exact
import TypedQuery.Proofs.Document.Progress

/-!
# The first selection that fails

The selections of a tree stand at places, a field before what is selected on its value. What becomes
of a selection by itself depends on its place alone: on the type of the values from which it
selects. A tree compiles as its places tell. It fails exactly if one of them fails by itself, with
the failure of the first one that does and with the path to it.
-/

namespace TypedQuery

open Halting

/-- A halt, at a path. -/
def Halt.located (path : List String) : Halt CompileFault → Halt FieldFailure
  | .fault cause => .fault ⟨cause, path⟩
  | .depth => .depth

/-- A computation that stops with a fault stops with the path of its place. -/
theorem located_of_error {α : Type} {run : Compile α} {path : List String}
    {halt : Halt CompileFault} {session final : Session} (hrun : run session = .error halt final) :
    run.mapFault (FieldFailure.mk · path) session = .error (halt.located path) final := by
  unfold mapFault
  rw [hrun]
  cases halt with
  | fault cause => rfl
  | depth => rfl

/-- The place of a selection: the response names on the way to it, and the type of the values from
which it selects. -/
structure Place where
  path : List String
  ty : Ty
  selection : Selection

namespace Scope

/-- A selection by itself, without what is selected on its value. A selection set needs values from
which it can select. -/
def compileOwn (scope : Scope) (claims : Claims) (parent : Node) : Selection → Compile Node
  | .spread fragment _ => Halting.fail (.unknownFragment fragment)
  | .field name _ arguments selections _ => do
    let node ← scope.compileBareField .parameter claims parent name arguments
    if selections.isEmpty then
      return node
    else
      let _ ← Halting.ofExcept (selectedTy node.ty)
      return node

/-- The type of what a selection on the values of a type gives, or the reason for which it cannot be
compiled by itself. It is compiled in the first session. -/
def ownTy (scope : Scope) (claims : Claims) (ty : Ty) (selection : Selection) :
    Except (Halt CompileFault) Ty :=
  match scope.compileOwn claims (context ty) selection ⟨0, .empty⟩ with
  | .ok node _ => .ok node.ty
  | .error halt _ => .error halt

/-- The type of the values from which what is inside of a selection selects. -/
def innerTy? (scope : Scope) (claims : Claims) (ty : Ty) (selection : Selection) : Option Ty :=
  match scope.ownTy claims ty selection with
  | .ok result => (selectedTy result).toOption.map Prod.fst
  | .error _ => none

mutual

/-- The places of a selection below a path and of all that is inside of it, a field before what is
selected on its value. Nothing has a place on values that there are not. -/
def places (scope : Scope) (claims : Claims) (path : List String) (ty : Ty) :
    Selection → List Place
  | .spread fragment position => [⟨path, ty, .spread fragment position⟩]
  | .field name alias? arguments selections position =>
    let field := .field name alias? arguments selections position
    let path := path ++ [alias?.getD name]
    ⟨path, ty, field⟩ ::
      match scope.innerTy? claims ty field with
      | some inner => placesIn scope claims path inner selections
      | none => []

/-- The places of selections, one after another. -/
def placesIn (scope : Scope) (claims : Claims) (path : List String) (ty : Ty) :
    List Selection → List Place
  | [] => []
  | selection :: rest =>
    places scope claims path ty selection ++ placesIn scope claims path ty rest

end

/-- The reason for which the selection at a place cannot be compiled by itself. -/
def haltAt? (scope : Scope) (claims : Claims) (place : Place) : Option (Halt FieldFailure) :=
  match scope.ownTy claims place.ty place.selection with
  | .ok _ => none
  | .error halt => some (halt.located place.path)

/-- A failure is that of the first place whose selection cannot be compiled by itself, with the path
to it. -/
def PointsAtFirst (scope : Scope) (claims : Claims) (places : List Place)
    (failure : FieldFailure) : Prop :=
  ∃ before place after, places = before ++ place :: after ∧
    (∀ earlier ∈ before, ∃ result,
      scope.ownTy claims earlier.ty earlier.selection = .ok result) ∧
    scope.ownTy claims place.ty place.selection = .error (.fault failure.fault) ∧
    failure.path = place.path

variable {scope : Scope} {claims : Claims} {places : List Place} {failure : FieldFailure}

/-- Nothing fails at a place exactly if its selection has a type of its own. -/
theorem haltAt?_eq_none {place : Place} :
    scope.haltAt? claims place = none ↔
      ∃ result, scope.ownTy claims place.ty place.selection = .ok result := by
  unfold haltAt?
  cases scope.ownTy claims place.ty place.selection with
  | ok result => simp
  | error halt => simp

/-- A failure at a place is that of its selection, with the path of the place. -/
theorem haltAt?_eq_fault {place : Place} :
    scope.haltAt? claims place = some (.fault failure) ↔
      scope.ownTy claims place.ty place.selection = .error (.fault failure.fault) ∧
        failure.path = place.path := by
  unfold haltAt?
  obtain ⟨fault, path⟩ := failure
  cases scope.ownTy claims place.ty place.selection with
  | ok result => simp
  | error halt =>
    cases halt with
    | fault cause => simp [Halt.located, eq_comm]
    | depth => simp [Halt.located]

/-- The first halt among places is a failure if the failure points at the first place that fails. -/
theorem findSome?_haltAt?_eq_fault :
    places.findSome? (scope.haltAt? claims) = some (.fault failure) ↔
      scope.PointsAtFirst claims places failure := by
  rw [List.findSome?_eq_some_iff]
  simp only [haltAt?_eq_none, haltAt?_eq_fault]
  constructor
  · rintro ⟨before, place, after, hplaces, hfails, hbefore⟩
    exact ⟨before, place, after, hplaces, hbefore, hfails⟩
  · rintro ⟨before, place, after, hplaces, hbefore, hfails⟩
    exact ⟨before, place, after, hplaces, hfails, hbefore⟩

/-- Among places there is one first failure at most. -/
theorem PointsAtFirst.unique {other : FieldFailure}
    (h : scope.PointsAtFirst claims places failure)
    (hother : scope.PointsAtFirst claims places other) : failure = other := by
  have hsame := (findSome?_haltAt?_eq_fault.mpr h).symm.trans
    (findSome?_haltAt?_eq_fault.mpr hother)
  cases hsame
  rfl

end Scope

/-! ### How compilations end -/

/-- A compilation in a session ends with a halt, or with a result in a session that has no fewer
parameters. -/
inductive Run.Ends {ε α : Type} (run : Run ε α) (session : Session) : Option (Halt ε) → Prop
  | halts {halt : Halt ε} {final : Session} (hrun : run session = .error halt final) :
      Ends run session (some halt)
  | gives {result : α} {final : Session} (hrun : run session = .ok result final)
      (hle : session.parameters ≤ final.parameters) : Ends run session none

/-- A compilation in two parts ends where the first part halts, or else where the second one
does. -/
theorem Run.Ends.bind {ε α β : Type} {run : Run ε α} {next : α → Run ε β} {session : Session}
    {halt? more? : Option (Halt ε)} (h : run.Ends session halt?)
    (hnext : ∀ result between, run session = .ok result between →
      session.parameters ≤ between.parameters → (next result).Ends between more?) :
    Run.Ends (run >>= next) session (halt?.or more?) := by
  cases h with
  | halts hrun => exact .halts (bind_of_error hrun)
  | @gives result between hrun hle =>
    cases hnext result between hrun hle with
    | halts hmore => exact .halts ((bind_of_ok hrun).trans hmore)
    | gives hmore hle' => exact .gives ((bind_of_ok hrun).trans hmore) (Nat.le_trans hle hle')

namespace Scope

variable {scope : Scope} {claims : Claims} {root : String} {ty : Ty} {session : Session}

/-- A selection compiles by itself in lockstep on parents that are alike. -/
theorem compileOwn_lockstep {L : Likeness} (hcapture : Capture.parameter.Alike L .parameter)
    (hmethods : scope.methods.Uniform L) (claims : Claims) {parent parent' : Node}
    (hparent : parent.Alike L parent') (selection : Selection) :
    Halting.Lockstep L.sessions (Node.Alike L) (scope.compileOwn claims parent selection)
      (scope.compileOwn claims parent' selection) := by
  cases selection with
  | spread fragment position => exact .fail _
  | field name alias? arguments selections position =>
    unfold compileOwn
    refine .bind (compileBareField_lockstep hcapture hmethods hparent claims name arguments)
      fun node exact hnode => ?_
    rw [hnode.ty_eq]
    split
    · exact .pure hnode
    · exact .check fun _ => .pure hnode

/-- What becomes of a selection by itself is the same in every session, on every parameter for the
values of its parent. -/
theorem compileOwn_ends (hmethods : scope.methods.Nameless) (claims : Claims)
    (hroot : Apart root session.parameters) (selection : Selection) :
    (∃ node final, scope.compileOwn claims (.ofPlan (.param ty root)) selection session =
        .ok node final ∧ session.parameters ≤ final.parameters ∧
          scope.ownTy claims ty selection = .ok node.ty) ∨
      ∃ halt final, scope.compileOwn claims (.ofPlan (.param ty root)) selection session =
        .error halt final ∧ scope.ownTy claims ty selection = .error halt := by
  have hfirst := apart_contextName 0
  have hstart : (Likeness.renamed hfirst hroot).sessions ⟨0, .empty⟩ session := ⟨0, rfl, rfl⟩
  rcases (compileOwn_lockstep (Likeness.parameter_alike hfirst hroot) (hmethods hfirst hroot) claims
    (Likeness.root_alike hfirst hroot ty) selection).outcome hstart with
    ⟨exact, node, _, final, hexact, hnode, halike, i, _, hfinal⟩ |
    ⟨halt, _, final, hexact, hhalt, _⟩
  · refine .inl ⟨node, final, hnode, by omega, ?_⟩
    unfold ownTy context
    rw [hexact, ← halike.ty_eq]
  · refine .inr ⟨halt, final, hhalt, ?_⟩
    unfold ownTy context
    rw [hexact]

/-- A field is compiled by itself at first, and then what is inside of it. -/
theorem compileSelection_own (path : List String) (parent : Node) (name : String)
    (alias? : Option String) (arguments : List (String × Argument)) (selections : List Selection)
    (position : Position) :
    scope.compileSelection .parameter claims path parent
        (.field name alias? arguments selections position) = (do
      let node ← (scope.compileOwn claims parent
        (.field name alias? arguments selections position)).mapFault
          (⟨·, path ++ [alias?.getD name]⟩)
      if selections.isEmpty then
        return node
      else
        selectOn node (path ++ [alias?.getD name])
          (scope.recordOf .parameter claims (path ++ [alias?.getD name]) selections)) := by
  rw [compileSelection_field]
  unfold compileOwn
  rw [mapFault_bind, bind_assoc]
  congr 1
  funext node
  by_cases hempty : selections.isEmpty = true
  · rw [if_pos hempty, if_pos hempty]
    simp only [if_pos hempty]
    rfl
  · rw [if_neg hempty, if_neg hempty]
    simp only [if_neg hempty]
    cases hfound : selectedTy node.ty with
    | error fault =>
      unfold selectOn
      rw [hfound]
      rfl
    | ok found => rfl

/-- A field that compiles by itself has no selection set, or values from which it can select. -/
theorem selectedTy_of_compileOwn {parent node : Node} {name : String} {alias? : Option String}
    {arguments : List (String × Argument)} {selections : List Selection} {position : Position}
    {final : Session}
    (hown : scope.compileOwn claims parent (.field name alias? arguments selections position)
      session = .ok node final) :
    selections = [] ∨ ∃ inner overItems, selectedTy node.ty = .ok (inner, overItems) := by
  unfold compileOwn at hown
  obtain ⟨_, _, _, hcheck⟩ := bind_eq_ok.mp hown
  by_cases hempty : selections.isEmpty = true
  · exact .inl (List.isEmpty_iff.mp hempty)
  · rw [if_neg hempty, check_eq_ok] at hcheck
    obtain ⟨⟨inner, overItems⟩, hinner, hend⟩ := hcheck
    obtain ⟨rfl, _⟩ := pure_eq_ok.mp hend
    exact .inr ⟨inner, overItems, hinner⟩

/-- A selection set ends as the record of the value does, or of the items. -/
theorem selectOn_ends {source : Node} {path : List String} {build : Node → Run FieldFailure Node}
    {inner : Ty} {overItems : Bool} {halt? : Option (Halt FieldFailure)}
    (hinner : selectedTy source.ty = .ok (inner, overItems))
    (hbuild : Run.Ends (build (session.parameter inner)) session.named halt?) :
    Run.Ends (selectOn source path build) session halt? := by
  cases hbuild with
  | halts hrun => exact .halts (selectOn_of_error hinner hrun)
  | gives hrun hle =>
    refine .gives (selectOn_eq_ok.mpr ⟨inner, overItems, _, hinner, hrun, rfl⟩) ?_
    exact Nat.le_trans (Nat.le_succ _) hle

/-- A record of columns never fails. -/
theorem columnsNode_ends (node : Node) (columns : Entries Plan) :
    Run.Ends (columnsNode node columns) session none :=
  .gives rfl (Nat.le_refl _)

/-- A record ends as its columns do. -/
theorem recordOf_ends {path : List String} {selections : List Selection} {parameter : Node}
    {halt? : Option (Halt FieldFailure)}
    (hcolumns : Run.Ends (scope.compileColumns .parameter claims path parameter selections parameter
      []) session halt?) :
    Run.Ends (scope.recordOf .parameter claims path selections parameter) session halt? := by
  unfold recordOf
  have hends := hcolumns.bind fun found _ _ _ => columnsNode_ends found.1 found.2
  rwa [Option.or_none] at hends

/-- What is inside of a field ends as the first place tells that fails there, if the record of its
value does. -/
theorem inside_ends {node : Node} {path : List String} {selections : List Selection}
    (hown : selections = [] ∨ ∃ inner overItems, selectedTy node.ty = .ok (inner, overItems))
    (hrecord : ∀ inner, Run.Ends (scope.recordOf .parameter claims path selections
      (session.parameter inner)) session.named
        ((scope.placesIn claims path inner selections).findSome? (scope.haltAt? claims))) :
    Run.Ends (if selections.isEmpty then return node
        else selectOn node path (scope.recordOf .parameter claims path selections)) session
      (match selectedTy node.ty with
        | .ok (inner, _) =>
          (scope.placesIn claims path inner selections).findSome? (scope.haltAt? claims)
        | .error _ => none) := by
  cases selections with
  | nil =>
    unfold placesIn
    cases selectedTy node.ty with
    | error fault => exact .gives rfl (Nat.le_refl _)
    | ok found => exact .gives rfl (Nat.le_refl _)
  | cons first rest =>
    obtain ⟨inner, overItems, hinner⟩ := hown.resolve_left (List.cons_ne_nil _ _)
    rw [hinner]
    exact selectOn_ends hinner (hrecord inner)

/-- The places of a field: its own, and those inside of it. -/
theorem findSome?_places_field {path : List String} {name : String} {alias? : Option String}
    {arguments : List (String × Argument)} {selections : List Selection} {position : Position} :
    let field := Selection.field name alias? arguments selections position
    let front := path ++ [alias?.getD name]
    (scope.places claims path ty field).findSome? (scope.haltAt? claims) =
      match scope.ownTy claims ty field with
      | .error halt => some (halt.located front)
      | .ok result =>
        match selectedTy result with
        | .ok (inner, _) => (scope.placesIn claims front inner selections).findSome?
            (scope.haltAt? claims)
        | .error _ => none := by
  intro field front
  unfold places
  rw [List.findSome?_cons]
  unfold haltAt? innerTy?
  dsimp only
  cases scope.ownTy claims ty field with
  | error halt => rfl
  | ok result =>
    dsimp only
    cases selectedTy result with
    | error fault => rfl
    | ok found => rfl

mutual

/-- A selection ends as the first place tells that fails, its own or one inside of it. -/
theorem compileSelection_ends (hmethods : scope.methods.Nameless) (path : List String)
    {root : String} {ty : Ty} :
    (selection : Selection) → ∀ {session : Session}, Apart root session.parameters →
      Run.Ends (scope.compileSelection .parameter claims path (.ofPlan (.param ty root)) selection)
        session ((scope.places claims path ty selection).findSome? (scope.haltAt? claims))
  | .spread fragment position, session, _ => by
    unfold compileSelection places
    exact .halts rfl
  | .field name alias? arguments selections position, session, hroot => by
    rw [compileSelection_own, findSome?_places_field]
    rcases compileOwn_ends hmethods claims hroot
        (.field name alias? arguments selections position) with
      ⟨node, between, hown, hle, hty⟩ | ⟨halt, final, hown, hty⟩
    · rw [hty]
      refine Run.Ends.bind (.gives (mapFault_eq_ok.mpr hown) hle) fun result after hresult _ => ?_
      cases hresult.symm.trans (mapFault_eq_ok.mpr hown)
      refine inside_ends (selectedTy_of_compileOwn hown) fun inner => ?_
      exact recordOf_ends (compileColumns_ends hmethods _ selections
        (apart_parameterName between.parameters))
    · rw [hty]
      exact .halts (bind_of_error (located_of_error hown))

/-- Selections end as the first place tells that fails in one of them. -/
theorem compileColumns_ends (hmethods : scope.methods.Nameless) (path : List String)
    {root : String} {ty : Ty} :
    (selections : List Selection) → ∀ {session : Session} {node : Node} {columns : Entries Plan},
      Apart root session.parameters →
      Run.Ends (scope.compileColumns .parameter claims path (.ofPlan (.param ty root)) selections
        node columns) session
        ((scope.placesIn claims path ty selections).findSome? (scope.haltAt? claims))
  | [], session, node, columns, _ => by
    unfold compileColumns placesIn
    exact .gives rfl (Nat.le_refl _)
  | selection :: rest, session, node, columns, hroot => by
    unfold compileColumns placesIn
    rw [List.findSome?_append]
    refine .bind (compileSelection_ends hmethods path selection hroot) ?_
    intro child between _ hle
    exact compileColumns_ends hmethods path rest (hroot.mono hle)

end

/-- A selection fails just as the first place does that fails by itself. -/
theorem compileSelection_eq_fault (hmethods : scope.methods.Nameless) {path : List String}
    {selection : Selection} {failure : FieldFailure} (hroot : Apart root session.parameters) :
    (∃ final, scope.compileSelection .parameter claims path (.ofPlan (.param ty root)) selection
        session = .error (.fault failure) final) ↔
      scope.PointsAtFirst claims (scope.places claims path ty selection) failure := by
  rw [← findSome?_haltAt?_eq_fault]
  have hends : Run.Ends (scope.compileSelection .parameter claims path (.ofPlan (.param ty root))
      selection) session _ := compileSelection_ends hmethods path selection hroot
  generalize (scope.places claims path ty selection).findSome? (scope.haltAt? claims) = halt?
    at hends
  cases hends with
  | @halts halt final hrun =>
    rw [hrun]
    constructor
    · rintro ⟨_, h⟩
      cases h
      rfl
    · intro h
      cases h
      exact ⟨final, rfl⟩
  | gives hrun hle =>
    rw [hrun]
    exact ⟨nofun, nofun⟩

end Scope

end TypedQuery
