import TypedQuery.Proofs.Authorization.Unguarded
import TypedQuery.Proofs.Document.Typing
import TypedQuery.Proofs.Lockstep.Renaming

/-!
# Authorization of selections

The requirements that a selection meets are those of the fields that it selects on objects, at
every depth, and those of the object types to which the values of its fields belong. A field of a
document compiles exactly if it compiles without requirements and the caller meets all of these,
and then to the same query.
-/

namespace TypedQuery

open Halting

/-- A caller has a role of each group, as a claim of the type of roles. -/
def Requirement.Holds (requirement : Requirement) (claims : Claims) : Prop :=
  ∀ group ∈ requirement.groups, ∃ role ∈ group, (claims.roleType, role) ∈ claims.claims

/-- The object type of the values of a type or of the items of its lists. -/
def Ty.objectName? (ty : Ty) : Option String :=
  match ty.underlying with
  | .object name => some name
  | .list element =>
    match element.underlying with
    | .object name => some name
    | _ => none
  | _ => none

namespace Schema

/-- The requirement of a field of the values of a type, if they are objects. -/
def fieldRequirement? (schema : Schema) (parent : Ty) (name : String) : Option Requirement :=
  match parent.underlying with
  | .object type => (schema.field? type name).bind FieldDefinition.requirement?
  | _ => none

/-- The requirement of the object type of the values of a type or of the items of its lists. -/
def typeRequirement? (schema : Schema) (ty : Ty) : Option Requirement :=
  ty.objectName?.bind fun name => (schema.type? name).bind ObjectType.requirement?

variable {schema : Schema} {claims : Claims}

/-- A requirement holds exactly if no group is unmet. -/
theorem holds_iff_unmet {requirement : Requirement} :
    requirement.Holds claims ↔ (requirement.unmet claims).isEmpty = true := by
  simp [Requirement.Holds, Requirement.unmet, Requirement.meets, Claims.hasRole]

/-- A target may be used exactly if its requirement holds, if it has one. -/
theorem authorize_eq_ok {target : String} {requirement? : Option Requirement} :
    authorize target requirement? claims = .ok () ↔
      ∀ requirement ∈ requirement?, requirement.Holds claims := by
  unfold authorize
  cases requirement? with
  | none => simp
  | some requirement =>
    simp only [Option.mem_def, Option.some.injEq, forall_eq', holds_iff_unmet]
    split
    · simp [*]
    · simp [*]

/-- The values of a type may be seen exactly if the requirement of the type holds. -/
theorem authorizeTy_eq_ok {ty : Ty} :
    schema.authorizeTy claims ty = .ok () ↔
      ∀ requirement ∈ schema.typeRequirement? ty, requirement.Holds claims := by
  unfold authorizeTy typeRequirement? Ty.objectName?
  cases ty.underlying with
  | object name =>
    dsimp only
    rw [Option.bind_some]
    cases schema.type? name with
    | none => simp
    | some type => exact authorize_eq_ok
  | list element =>
    dsimp only
    cases element.underlying with
    | object name =>
      dsimp only
      rw [Option.bind_some]
      cases schema.type? name with
      | none => simp
      | some type => exact authorize_eq_ok
    | _ => simp
  | _ => simp

/-- Without requirements no field has one. -/
theorem fieldRequirement?_unguarded (parent : Ty) (name : String) :
    schema.unguarded.fieldRequirement? parent name = none := by
  unfold fieldRequirement?
  split
  · rw [field?_unguarded]
    cases schema.field? _ name with
    | none => rfl
    | some field => rfl
  · rfl

/-- Without requirements no type has one. -/
theorem typeRequirement?_unguarded (ty : Ty) : schema.unguarded.typeRequirement? ty = none := by
  unfold typeRequirement?
  cases ty.objectName? with
  | none => rfl
  | some name =>
    rw [Option.bind_some, type?_unguarded]
    cases schema.type? name with
    | none => rfl
    | some type => rfl

end Schema

/-- The methods of a library do not look at the names of parameters. -/
def MethodLibrary.Nameless (library : MethodLibrary) : Prop :=
  ∀ {first second : Nat} {root root' : String} (hroot : Apart root first)
    (hroot' : Apart root' second), library.Uniform (.renamed hroot hroot')

/-- The standard methods do not look at the names of parameters. -/
theorem MethodLibrary.nameless_standard : standard.Nameless :=
  fun _ _ => uniform_standard

namespace Scope

/-- A field with arguments gives the values of one type a value of another type. Requirements do
not stand in the way. -/
def GivesTy (scope : Scope) (parent : Ty) (name : String) (arguments : List (String × Argument))
    (ty : Ty) : Prop :=
  ∃ session node final, scope.unguarded.compileBareField .parameter .none (context parent) name
    arguments session = .ok node final ∧ node.ty = ty

/-- The requirements that a selection on the values of a type meets. -/
inductive Meets (scope : Scope) : Ty → Selection → Requirement → Prop
  /-- The requirement of the field that is selected on an object. -/
  | field {parent : Ty} {name : String} {alias? : Option String}
      {arguments : List (String × Argument)} {selections : List Selection} {position : Position}
      {requirement : Requirement}
      (hfield : requirement ∈ scope.schema.fieldRequirement? parent name) :
      Meets scope parent (.field name alias? arguments selections position) requirement
  /-- The requirement of the object type of the value of the field. -/
  | type {parent ty : Ty} {name : String} {alias? : Option String}
      {arguments : List (String × Argument)} {selections : List Selection} {position : Position}
      {requirement : Requirement} (hgives : scope.GivesTy parent name arguments ty)
      (htype : requirement ∈ scope.schema.typeRequirement? ty) :
      Meets scope parent (.field name alias? arguments selections position) requirement
  /-- The requirements of what is selected in turn on the value, or on its items. -/
  | nested {parent ty item : Ty} {overItems : Bool} {name : String} {alias? : Option String}
      {arguments : List (String × Argument)} {selections : List Selection} {position : Position}
      {selection : Selection} {requirement : Requirement}
      (hgives : scope.GivesTy parent name arguments ty)
      (hitem : selectedTy ty = .ok (item, overItems)) (hmem : selection ∈ selections)
      (hmeets : Meets scope item selection requirement) :
      Meets scope parent (.field name alias? arguments selections position) requirement

variable {scope : Scope} {capture : Capture} {claims : Claims} {parent node : Node}
  {session final : Session} {name : String} {arguments : List (String × Argument)}

/-- A field of an object compiles as it does without requirements if its own requirement holds. -/
theorem compileObjectField_eq_ok (caller : Claims) {type : String} :
    scope.compileObjectField capture claims parent type name arguments session = .ok node final ↔
      scope.unguarded.compileObjectField capture caller parent type name arguments session =
          .ok node final ∧
        ∀ requirement ∈ (scope.schema.field? type name).bind FieldDefinition.requirement?,
          requirement.Holds claims := by
  unfold compileObjectField
  have hfield : scope.unguarded.schema.field? type name =
      (scope.schema.field? type name).map FieldDefinition.unguarded :=
    Schema.field?_unguarded type name
  rw [hfield]
  cases scope.schema.field? type name with
  | none => exact ⟨nofun, nofun⟩
  | some field =>
    have hcompile : ∀ bound, scope.unguarded.fieldCompiler capture parent field.unguarded bound =
        scope.fieldCompiler capture parent field bound := fieldCompiler_unguarded parent field
    have hschema : scope.unguarded.schema = scope.schema.unguarded := rfl
    have hvars : scope.unguarded.vars = scope.vars := rfl
    have harguments : field.unguarded.arguments = field.arguments := rfl
    have hsequence : field.unguarded.sequenceArguments = field.sequenceArguments := rfl
    simp only [Option.map_some, check_eq_ok, hcompile, hschema, hvars, harguments, hsequence,
      Schema.bindArguments_unguarded, applySequence_unguarded, Option.bind_some]
    constructor
    · rintro ⟨_, hcheck, hrun⟩
      exact ⟨⟨(), rfl, hrun⟩, Schema.authorize_eq_ok.mp hcheck⟩
    · rintro ⟨⟨_, _, hrun⟩, hholds⟩
      exact ⟨(), Schema.authorize_eq_ok.mpr hholds, hrun⟩

/-- What is compiled is given if the requirement of its type holds. -/
theorem checkTy_eq_ok {schema : Schema} {claims : Claims} {run : Compile Node} :
    (run >>= fun node => do
      Halting.ofExcept (schema.authorizeTy claims node.ty)
      return node : Compile Node) session = .ok node final ↔
        run session = .ok node final ∧
          ∀ requirement ∈ schema.typeRequirement? node.ty, requirement.Holds claims := by
  rw [bind_eq_ok]
  simp only [check_eq_ok, pure_eq_ok]
  constructor
  · rintro ⟨_, _, hrun, _, hcheck, rfl, rfl⟩
    exact ⟨hrun, Schema.authorizeTy_eq_ok.mp hcheck⟩
  · rintro ⟨hrun, hholds⟩
    exact ⟨node, final, hrun, (), Schema.authorizeTy_eq_ok.mpr hholds, rfl, rfl⟩

/-- A field compiles as it does without requirements if its own requirement and that of the type
of its value hold. -/
theorem compileBareField_eq_ok (caller : Claims) :
    scope.compileBareField capture claims parent name arguments session = .ok node final ↔
      scope.unguarded.compileBareField capture caller parent name arguments session =
          .ok node final ∧
        (∀ requirement ∈ scope.schema.fieldRequirement? parent.ty name,
          requirement.Holds claims) ∧
        ∀ requirement ∈ scope.schema.typeRequirement? node.ty, requirement.Holds claims := by
  have hschema : scope.unguarded.schema = scope.schema.unguarded := rfl
  have hresolve : scope.unguarded.resolve (scope.unguarded.fieldCompiler capture) parent name =
      scope.resolve (scope.fieldCompiler capture) parent name :=
    resolve_unguarded fieldCompiler_unguarded parent name
  unfold compileBareField Schema.fieldRequirement?
  cases parent.ty.underlying with
  | object type =>
    dsimp only
    rw [checkTy_eq_ok, checkTy_eq_ok, compileObjectField_eq_ok caller, hschema,
      Schema.typeRequirement?_unguarded]
    simp [and_assoc]
  | _ =>
    dsimp only
    rw [hresolve]
    by_cases hempty : arguments.isEmpty = true
    · rw [if_pos hempty, if_pos hempty, checkTy_eq_ok, checkTy_eq_ok, hschema,
        Schema.typeRequirement?_unguarded]
      simp
    · rw [if_neg hempty, if_neg hempty]
      exact ⟨nofun, nofun⟩

/-- Without requirements it does not matter who compiles a field. -/
theorem compileBareField_unguarded (caller other : Claims) :
    scope.unguarded.compileBareField capture caller parent name arguments session =
        .ok node final ↔
      scope.unguarded.compileBareField capture other parent name arguments session =
        .ok node final := by
  have hfield : scope.unguarded.schema.fieldRequirement? parent.ty name = none :=
    Schema.fieldRequirement?_unguarded parent.ty name
  have htype : scope.unguarded.schema.typeRequirement? node.ty = none :=
    Schema.typeRequirement?_unguarded node.ty
  have hiff : ∀ claims, scope.unguarded.compileBareField capture claims parent name arguments
      session = .ok node final ↔ scope.unguarded.unguarded.compileBareField capture .none parent
        name arguments session = .ok node final := by
    intro claims
    rw [compileBareField_eq_ok .none, hfield, htype]
    simp
  exact (hiff caller).trans (hiff other).symm

variable {root : String} {ty : Ty}

/-- The type that a field gives is that of its node on every parameter, whatever the parameter is
called and however many there are. -/
theorem givesTy_iff (hmethods : scope.methods.Nameless) {result : Ty}
    (hroot : Apart root session.parameters)
    (hrun : scope.unguarded.compileBareField .parameter .none (.ofPlan (.param ty root)) name
      arguments session = .ok node final) :
    scope.GivesTy ty name arguments result ↔ node.ty = result := by
  have hcontext : ∀ session' : Session, ∃ exact final',
      scope.unguarded.compileBareField .parameter .none (context ty) name arguments session' =
        .ok exact final' ∧ node.ty = exact.ty := by
    intro session'
    have hroot' := apart_contextName session'.parameters
    have huniform : scope.unguarded.methods.Uniform (.renamed hroot hroot') := hmethods hroot hroot'
    rcases (compileBareField_lockstep (Likeness.parameter_alike hroot hroot') huniform
      (Likeness.root_alike hroot hroot' ty) .none name arguments).outcome
        ⟨0, rfl, rfl⟩ with
      ⟨found, exact, _, final', hfound, hexact, halike, _⟩ | ⟨_, _, _, hfail, _⟩
    · cases hrun.symm.trans hfound
      exact ⟨exact, final', hexact, halike.ty_eq⟩
    · cases hrun.symm.trans hfail
  constructor
  · rintro ⟨session', found, _, hfound, rfl⟩
    obtain ⟨exact, _, hexact, hty⟩ := hcontext session'
    cases hfound.symm.trans hexact
    exact hty
  · rintro rfl
    obtain ⟨exact, final', hexact, hty⟩ := hcontext session
    exact ⟨session, exact, final', hexact, hty.symm⟩

/-- A selection only adds to the parameters. -/
theorem parameters_le_of_compileSelection (hmethods : scope.methods.Nameless)
    {selection : Selection} {path : List String} (hroot : Apart root session.parameters)
    (hrun : scope.compileSelection .parameter claims path (.ofPlan (.param ty root)) selection
      session = .ok node final) : session.parameters ≤ final.parameters := by
  have hend := compileSelection_lockstep (Likeness.parameter_alike hroot hroot)
    (hmethods hroot hroot) claims (Likeness.root_alike hroot hroot ty) path selection session
    session ⟨0, rfl, rfl⟩
  rw [hrun] at hend
  obtain ⟨_, i, hfinal, _⟩ := hend
  omega

/-- A record of an item is built as without requirements if something holds of the type of the
item. -/
theorem selectOn_guarded {source : Node} {path : List String}
    {build build' : Node → Run FieldFailure Node} {holds : Ty → Prop}
    (hbuild : ∀ item record,
      (build (.ofPlan (.param item (parameterName session.parameters)))
          { session with parameters := session.parameters + 1 } = .ok record final ↔
        build' (.ofPlan (.param item (parameterName session.parameters)))
            { session with parameters := session.parameters + 1 } = .ok record final ∧
          holds item)) :
    selectOn source path build session = .ok node final ↔
      selectOn source path build' session = .ok node final ∧
        ∀ item overItems, selectedTy source.ty = .ok (item, overItems) → holds item := by
  rw [selectOn_eq_ok, selectOn_eq_ok]
  constructor
  · rintro ⟨item, overItems, record, hitem, hrecord, hnode⟩
    obtain ⟨hfree, hholds⟩ := (hbuild item record).mp hrecord
    refine ⟨⟨item, overItems, record, hitem, hfree, hnode⟩, fun item' overItems' hitem' => ?_⟩
    cases hitem.symm.trans hitem'
    exact hholds
  · rintro ⟨⟨item, overItems, record, hitem, hfree, hnode⟩, hholds⟩
    exact ⟨item, overItems, record, hitem,
      (hbuild item record).mpr ⟨hfree, hholds item overItems hitem⟩, hnode⟩

/-- A field with what is selected on its value compiles as without requirements if all that it
meets hold, provided that this is so for what is selected on the value. -/
theorem field_guarded (hmethods : scope.methods.Nameless) (caller : Claims)
    (hroot : Apart root session.parameters) {path : List String} {alias? : Option String}
    {selections : List Selection} {position : Position} {next next' : Node → Run FieldFailure Node}
    (hnext : ∀ source between, next source between = .ok node final ↔
      next' source between = .ok node final ∧
        ∀ item overItems, selectedTy source.ty = .ok (item, overItems) →
          ∀ selection ∈ selections, ∀ requirement, scope.Meets item selection requirement →
            requirement.Holds claims) :
    ((scope.compileBareField .parameter claims (.ofPlan (.param ty root)) name arguments).mapFault
          (⟨·, path⟩) >>= next) session = .ok node final ↔
      ((scope.unguarded.compileBareField .parameter caller (.ofPlan (.param ty root)) name
            arguments).mapFault (⟨·, path⟩) >>= next') session = .ok node final ∧
        ∀ requirement,
          scope.Meets ty (.field name alias? arguments selections position) requirement →
            requirement.Holds claims := by
  simp only [bind_eq_ok, mapFault_eq_ok]
  constructor
  · rintro ⟨source, between, hsource, hnode⟩
    obtain ⟨hfree, hfield, htype⟩ := (compileBareField_eq_ok .none).mp hsource
    obtain ⟨hnode, hnested⟩ := (hnext source between).mp hnode
    refine ⟨⟨source, between, ((compileBareField_eq_ok caller).mp hsource).1, hnode⟩, ?_⟩
    intro requirement hmeets
    cases hmeets with
    | field hrequirement => exact hfield requirement hrequirement
    | type hgives hrequirement =>
      rw [← (givesTy_iff hmethods hroot hfree).mp hgives] at hrequirement
      exact htype requirement hrequirement
    | nested hgives hitem hmem hmeets =>
      rw [← (givesTy_iff hmethods hroot hfree).mp hgives] at hitem
      exact hnested _ _ hitem _ hmem requirement hmeets
  · rintro ⟨⟨source, between, hsource, hnode⟩, hholds⟩
    have hgives : scope.GivesTy ty name arguments source.ty :=
      (givesTy_iff hmethods hroot ((compileBareField_unguarded caller .none).mp hsource)).mpr rfl
    refine ⟨source, between, (compileBareField_eq_ok caller).mpr ⟨hsource, ?_, ?_⟩,
      (hnext source between).mpr ⟨hnode, ?_⟩⟩
    · exact fun requirement hmem => hholds requirement (.field hmem)
    · exact fun requirement hmem => hholds requirement (.type hgives hmem)
    · exact fun item overItems hitem selection hmem requirement hmeets =>
        hholds requirement (.nested hgives hitem hmem hmeets)

mutual

/-- A selection compiles as it does without requirements if all that it meets hold. -/
theorem compileSelection_eq_ok (hmethods : scope.methods.Nameless) (caller : Claims)
    (path : List String) {root : String} {ty : Ty} : (selection : Selection) →
    ∀ {session final : Session} {node : Node}, Apart root session.parameters →
      (scope.compileSelection .parameter claims path (.ofPlan (.param ty root)) selection session =
          .ok node final ↔
        scope.unguarded.compileSelection .parameter caller path (.ofPlan (.param ty root)) selection
            session = .ok node final ∧
          ∀ requirement, scope.Meets ty selection requirement → requirement.Holds claims)
  | .spread fragment _, session, final, node, _ => by
    unfold compileSelection
    exact ⟨nofun, nofun⟩
  | .field name alias? arguments [] position, session, final, node, hroot => by
    unfold compileSelection
    exact field_guarded hmethods caller hroot fun source between =>
      (and_iff_left fun _ _ _ _ hmem => absurd hmem List.not_mem_nil).symm
  | .field name alias? arguments (first :: rest) position, session, final, node, hroot => by
    unfold compileSelection
    refine field_guarded hmethods caller hroot fun source between => selectOn_guarded ?_
    intro item record
    have hinner : Apart (parameterName between.parameters)
        { between with parameters := between.parameters + 1 : Session }.parameters :=
      apart_parameterName between.parameters
    rw [bind_eq_ok, bind_eq_ok]
    constructor
    · rintro ⟨columns, last, hcolumns, hrecord⟩
      obtain ⟨hfree, hholds⟩ :=
        (compileColumns_eq_ok hmethods caller _ (first :: rest) hinner).mp hcolumns
      exact ⟨⟨columns, last, hfree, hrecord⟩, hholds⟩
    · rintro ⟨⟨columns, last, hfree, hrecord⟩, hholds⟩
      exact ⟨columns, last, (compileColumns_eq_ok hmethods caller _ (first :: rest)
        hinner).mpr ⟨hfree, hholds⟩, hrecord⟩

/-- Selections compile exactly if they do so without requirements and all that they meet hold, and
then to the same. -/
theorem compileColumns_eq_ok (hmethods : scope.methods.Nameless) (caller : Claims)
    (path : List String) {root : String} {ty : Ty} : (selections : List Selection) →
    ∀ {session final : Session} {node : Node} {columns : Entries Plan}
      {result : Node × Entries Plan}, Apart root session.parameters →
      (scope.compileColumns .parameter claims path (.ofPlan (.param ty root)) selections node
          columns session = .ok result final ↔
        scope.unguarded.compileColumns .parameter caller path (.ofPlan (.param ty root)) selections
            node columns session = .ok result final ∧
          ∀ selection ∈ selections, ∀ requirement, scope.Meets ty selection requirement →
            requirement.Holds claims)
  | [], session, final, node, columns, result, _ => by
    unfold compileColumns
    simp
  | selection :: rest, session, final, node, columns, result, hroot => by
    unfold compileColumns
    rw [bind_eq_ok, bind_eq_ok, List.forall_mem_cons]
    constructor
    · rintro ⟨child, between, hchild, hrest⟩
      have hle := parameters_le_of_compileSelection hmethods hroot hchild
      obtain ⟨hfree, hholds⟩ :=
        (compileSelection_eq_ok hmethods caller path selection hroot).mp hchild
      obtain ⟨hfree', hholds'⟩ :=
        (compileColumns_eq_ok hmethods caller path rest (hroot.mono hle)).mp hrest
      exact ⟨⟨child, between, hfree, hfree'⟩, hholds, hholds'⟩
    · rintro ⟨⟨child, between, hfree, hfree'⟩, hholds, hholds'⟩
      have hchild := (compileSelection_eq_ok hmethods caller path selection hroot).mpr
        ⟨hfree, hholds⟩
      have hle := parameters_le_of_compileSelection hmethods hroot hchild
      exact ⟨child, between, hchild,
        (compileColumns_eq_ok hmethods caller path rest (hroot.mono hle)).mpr ⟨hfree', hholds'⟩⟩

end

end Scope

/-- The fields at the top of an operation in their order, with fragments written out. -/
def Document.topFields (document : Document) (selections : List Selection) : List Selection :=
  selections.flatMap fun selection =>
    match document.expand selection with
    | .ok expanded => expanded
    | .error _ => []

namespace Host

/-- The scope in which a field at the top of a query is compiled for a request. -/
def CompilesIn (host : Host) (document : Document) (request : Request) (selection : Selection)
    (scope : Scope) : Prop :=
  ∃ operation vars, document.operation request.operation? = .ok operation ∧
    operation.kind = .query ∧ selection ∈ document.topFields operation.selections ∧
    host.schema.bindVariables operation.vars request.vars = .ok vars ∧ scope = host.scope vars

/-- A field at the top of a query compiles for a request, in some session, to a query. -/
def CompilesTo (host : Host) (document : Document) (request : Request) (session : Session)
    (selection : Selection) (query : Query) : Prop :=
  ∃ scope final, host.CompilesIn document request selection scope ∧
    compileTopField scope .parameter request.claims .query selection session =
      .ok (.query query) final

/-- A field at the top of a query meets a requirement. -/
def Meets (host : Host) (document : Document) (request : Request) (selection : Selection)
    (requirement : Requirement) : Prop :=
  ∃ scope, host.CompilesIn document request selection scope ∧
    scope.Meets host.schema.contextTy selection requirement

end Host

/-- A field at the top of a query compiles to the query of its node. -/
theorem compileTopField_eq_ok {scope : Scope} {claims : Claims} {selection : Selection}
    {session final : Session} {query : Query} :
    compileTopField scope .parameter claims .query selection session = .ok (.query query) final ↔
      ∃ node, scope.compileSelection .parameter claims [] (Scope.context scope.schema.contextTy)
        selection session = .ok node final ∧ query = .ofNode node scope.schema.contextTy := by
  unfold compileTopField
  dsimp only
  rw [bind_eq_ok]
  constructor
  · rintro ⟨outcome, between, hrun, hend⟩
    cases outcome with
    | ok node =>
      cases hend
      exact ⟨node, attempt_eq_ok.mp hrun, rfl⟩
    | error failure => cases hend
  · rintro ⟨node, hrun, rfl⟩
    exact ⟨.ok node, final, attempt_eq_ok.mpr hrun, rfl⟩

namespace Host

variable {host : Host} {document : Document} {request : Request} {selection : Selection}

/-- A field compiles in one scope. -/
theorem CompilesIn.unique {scope scope' : Scope}
    (h : host.CompilesIn document request selection scope)
    (h' : host.CompilesIn document request selection scope') : scope = scope' := by
  obtain ⟨operation, vars, hoperation, _, _, hvars, rfl⟩ := h
  obtain ⟨operation', vars', hoperation', _, _, hvars', rfl⟩ := h'
  cases hoperation.symm.trans hoperation'
  cases hvars.symm.trans hvars'
  rfl

/-- Without requirements fields compile in the same scopes. -/
theorem compilesIn_unguarded {scope : Scope} :
    host.unguarded.CompilesIn document request selection scope ↔
      ∃ guarded, host.CompilesIn document request selection guarded ∧
        scope = guarded.unguarded := by
  have hschema : host.unguarded.schema = host.schema.unguarded := rfl
  constructor
  · rintro ⟨operation, vars, hoperation, hkind, hmem, hvars, rfl⟩
    rw [hschema, Schema.bindVariables_unguarded] at hvars
    exact ⟨host.scope vars, ⟨operation, vars, hoperation, hkind, hmem, hvars, rfl⟩, rfl⟩
  · rintro ⟨_, ⟨operation, vars, hoperation, hkind, hmem, hvars, rfl⟩, rfl⟩
    refine ⟨operation, vars, hoperation, hkind, hmem, ?_, rfl⟩
    rw [hschema, Schema.bindVariables_unguarded, hvars]

/-- A field at the top of a query compiles to one query. -/
theorem CompilesTo.unique {session : Session} {query query' : Query}
    (h : host.CompilesTo document request session selection query)
    (h' : host.CompilesTo document request session selection query') : query = query' := by
  obtain ⟨scope, final, hscope, hrun⟩ := h
  obtain ⟨scope', final', hscope', hrun'⟩ := h'
  cases hscope.unique hscope'
  cases hrun.symm.trans hrun'
  rfl

/-- In every session a field compiles exactly if it compiles without requirements and all that it
meets hold, and then to the same query. -/
theorem compilesTo_iff (hmethods : host.methods.Nameless) {session : Session} {query : Query} :
    host.CompilesTo document request session selection query ↔
      host.unguarded.CompilesTo document request session selection query ∧
        ∀ requirement, host.Meets document request selection requirement →
          requirement.Holds request.claims := by
  have hfield : ∀ {vars : Entries Value} {final : Session},
      compileTopField (host.scope vars) .parameter request.claims .query selection session =
          .ok (.query query) final ↔
        compileTopField (host.scope vars).unguarded .parameter request.claims .query selection
            session = .ok (.query query) final ∧
          ∀ requirement, (host.scope vars).Meets host.schema.contextTy selection requirement →
            requirement.Holds request.claims := by
    intro vars final
    have hscope : (host.scope vars).methods.Nameless := hmethods
    have hroot := apart_contextName session.parameters
    rw [compileTopField_eq_ok, compileTopField_eq_ok]
    constructor
    · rintro ⟨node, hnode, rfl⟩
      obtain ⟨hfree, hholds⟩ :=
        (Scope.compileSelection_eq_ok hscope request.claims [] selection hroot).mp hnode
      exact ⟨⟨node, hfree, rfl⟩, hholds⟩
    · rintro ⟨⟨node, hfree, rfl⟩, hholds⟩
      exact ⟨node, (Scope.compileSelection_eq_ok hscope request.claims [] selection hroot).mpr
        ⟨hfree, hholds⟩, rfl⟩
  constructor
  · rintro ⟨scope, final, hscope, hrun⟩
    obtain ⟨operation, vars, _, _, _, _, rfl⟩ := id hscope
    obtain ⟨hfree, hholds⟩ := hfield.mp hrun
    refine ⟨⟨_, final, compilesIn_unguarded.mpr ⟨_, hscope, rfl⟩, hfree⟩, ?_⟩
    rintro requirement ⟨scope', hscope', hmeets⟩
    cases hscope'.unique hscope
    exact hholds requirement hmeets
  · rintro ⟨⟨_, final, hfree, hrun⟩, hholds⟩
    obtain ⟨scope, hscope, rfl⟩ := compilesIn_unguarded.mp hfree
    obtain ⟨operation, vars, _, _, _, _, rfl⟩ := id hscope
    exact ⟨_, final, hscope, hfield.mpr ⟨hrun, fun requirement hmeets =>
      hholds requirement ⟨_, hscope, hmeets⟩⟩⟩

/-- A field compiles in every session to the same query, but for the numbers of parameters. -/
theorem CompilesTo.renamed (hmethods : host.methods.Nameless) {session : Session} {query : Query}
    (h : host.CompilesTo document request session selection query) (other : Session) :
    ∃ free, host.CompilesTo document request other selection free ∧ query.Renamed free := by
  obtain ⟨scope, final, hscope, hrun⟩ := h
  obtain ⟨operation, vars, _, _, _, _, rfl⟩ := id hscope
  have hfirst := apart_contextName session.parameters
  have hsecond := apart_contextName other.parameters
  have huniform : (host.scope vars).methods.Uniform (.renamed hfirst hsecond) :=
    hmethods hfirst hsecond
  rcases (compileTopField_lockstep (Likeness.parameter_alike hfirst hsecond) (Or.inl ⟨rfl, rfl⟩)
    huniform request.claims .query selection).outcome ⟨0, rfl, rfl⟩ with
      ⟨found, outcome, _, final', hfound, houtcome, hrelated, _⟩ | ⟨_, _, _, hfail, _⟩
  · cases hrun.symm.trans hfound
    cases hrelated with
    | query halike =>
      exact ⟨_, ⟨_, final', hscope, houtcome⟩, session.parameters, other.parameters, halike⟩
  · cases hrun.symm.trans hfail

/-- The queries of a compiled document are those to which its fields compile. -/
theorem compilesTo_of_compileOperation :
    Ensures (host.compileOperation document request) fun compiled =>
      ∀ entry ∈ compiled.fields, ∀ query, compiled.kind = .query → entry.2 = .query query →
        ∃ selection session, host.CompilesTo document request session selection query := by
  refine compileOperation_ensures (P := fun kind outcome => ∀ query, kind = .query →
    outcome = .query query →
      ∃ selection session, host.CompilesTo document request session selection query)
    (fun _ _ _ _ h => nomatch h) fun operation vars hoperation hvars selection hselection expanded
      hexpanded field hfield => ?_
  intro session outcome final hrun query hkind houtcome
  subst houtcome
  have hmem : field ∈ document.topFields operation.selections :=
    List.mem_flatMap.mpr ⟨selection, hselection, by rwa [hexpanded]⟩
  rw [hkind] at hrun
  exact ⟨field, session, _, final, ⟨operation, vars, hoperation, hkind, hmem, hvars, rfl⟩, hrun⟩

/-- A field at the top of a query compiles exactly if it compiles on the schema without
requirements, in the same session or in another one, and all requirements that it meets hold. The
query is the same, but for the numbers of parameters if the sessions differ. -/
theorem compiles_iff_authorized (hmethods : host.methods.Nameless) (document : Document)
    (request : Request) (selection : Selection) (session other : Session) :
    ((∃ query, host.CompilesTo document request session selection query) ↔
        (∃ query, host.unguarded.CompilesTo document request other selection query) ∧
          ∀ requirement, host.Meets document request selection requirement →
            requirement.Holds request.claims) ∧
      ∀ query, host.CompilesTo document request session selection query →
        host.unguarded.CompilesTo document request session selection query ∧
          ∀ free, host.unguarded.CompilesTo document request other selection free →
            query.Renamed free := by
  have hfree : host.unguarded.methods.Nameless := hmethods
  refine ⟨⟨?_, ?_⟩, ?_⟩
  · rintro ⟨query, hquery⟩
    obtain ⟨hquery, hholds⟩ := (compilesTo_iff hmethods).mp hquery
    obtain ⟨free, hrun, _⟩ := hquery.renamed hfree other
    exact ⟨⟨free, hrun⟩, hholds⟩
  · rintro ⟨⟨free, hrun⟩, hholds⟩
    obtain ⟨query, hquery, _⟩ := hrun.renamed hfree session
    exact ⟨query, (compilesTo_iff hmethods).mpr ⟨hquery, hholds⟩⟩
  · intro query hquery
    have hsame := ((compilesTo_iff hmethods).mp hquery).1
    refine ⟨hsame, fun free hrun => ?_⟩
    obtain ⟨found, hfound, hrenamed⟩ := hsame.renamed hfree other
    cases hfound.unique hrun
    exact hrenamed

end Host

/-- A host whose people are shown to readers and to administrators, and their salaries to
administrators only. -/
def rosterHost : Host where
  schema := .ofParts "Query" []
    [.ofFields "Query" none [.ofMember "People" (.list (.object "Person"))],
      .ofFields "Person" (some ⟨[["reader", "admin"]]⟩) [.ofMember "Name" .string,
        { FieldDefinition.ofMember "Salary" .decimal with requirement? := some ⟨[["admin"]]⟩ }]] []
  methods := .standard
  depth := 1

/-- The names and the salaries of all people. -/
def roster : Selection :=
  .field "people" none []
    [.field "name" none [] [] .start, .field "salary" none [] [] .start] .start

/-- The document that asks for them. -/
def rosterDocument : Document := ⟨[⟨.query, none, [], [roster]⟩], []⟩

/-- The request of a caller with a role. -/
def requestAs (role : String) : Request := ⟨none, [], Claims.none.withRole role⟩

/-- The outcome is a query. -/
def Outcome.isQuery : Outcome → Bool
  | .query _ => true
  | _ => false

/-- The roster compiles for administrators. For readers it compiles without requirements and not
with them, because of the salaries. -/
theorem Host.compiles_iff_authorized_roster :
    (∃ query, rosterHost.CompilesTo rosterDocument (requestAs "admin") ⟨0, .empty⟩ roster
        query) ∧
      (∃ query, rosterHost.unguarded.CompilesTo rosterDocument (requestAs "reader") ⟨0, .empty⟩
        roster query) ∧
      ¬ ∃ query, rosterHost.CompilesTo rosterDocument (requestAs "reader") ⟨0, .empty⟩ roster
        query := by
  have hscope : ∀ host : Host, host.schema.bindVariables [] [] = .ok [] → ∀ role,
      host.CompilesIn rosterDocument (requestAs role) roster (host.scope []) :=
    fun host hvars role => ⟨_, [], rfl, rfl, List.mem_singleton.mpr rfl, hvars, rfl⟩
  have hadmin : ∃ query, rosterHost.CompilesTo rosterDocument (requestAs "admin") ⟨0, .empty⟩
      roster query := by
    obtain ⟨outcome, final, hrun, hquery⟩ := exists_of_yields (show
      (compileTopField (rosterHost.scope []) .parameter (requestAs "admin").claims .query
        roster).yields ⟨0, .empty⟩ Outcome.isQuery = true by decide +kernel)
    cases outcome with
    | query query => exact ⟨query, _, final, hscope rosterHost rfl "admin", hrun⟩
    | mutation _ | failed _ => cases hquery
  have hreader : ∃ query, rosterHost.unguarded.CompilesTo rosterDocument (requestAs "reader")
      ⟨0, .empty⟩ roster query := by
    obtain ⟨outcome, final, hrun, hquery⟩ := exists_of_yields (show
      (compileTopField (rosterHost.unguarded.scope []) .parameter (requestAs "reader").claims .query
        roster).yields ⟨0, .empty⟩ Outcome.isQuery = true by decide +kernel)
    cases outcome with
    | query query => exact ⟨query, _, final, hscope rosterHost.unguarded rfl "reader", hrun⟩
    | mutation _ | failed _ => cases hquery
  refine ⟨hadmin, hreader, fun hcompiles => ?_⟩
  have hholds := ((@Host.compiles_iff_authorized rosterHost MethodLibrary.nameless_standard
    rosterDocument (requestAs "reader") roster ⟨0, .empty⟩ ⟨0, .empty⟩).1.mp hcompiles).2
  have hpeople : (rosterHost.scope []).GivesTy (.object "Query") "people" []
      (.list (.object "Person")) := by
    obtain ⟨node, final, hrun, hty⟩ := exists_of_yields (show
      ((rosterHost.scope []).unguarded.compileBareField .parameter .none
        (Scope.context (.object "Query")) "people" []).yields ⟨0, .empty⟩
          (fun node => node.ty = .list (.object "Person")) = true by decide +kernel)
    exact ⟨_, node, final, hrun, of_decide_eq_true hty⟩
  obtain ⟨role, hrole, hclaim⟩ := hholds ⟨[["admin"]]⟩ ⟨_, hscope rosterHost rfl "reader",
    .nested hpeople rfl (List.mem_cons_of_mem _ List.mem_cons_self) (.field rfl)⟩ ["admin"]
      List.mem_cons_self
  revert hclaim
  rw [List.mem_singleton.mp hrole]
  decide

end TypedQuery
