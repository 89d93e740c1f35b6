import TypedQuery.Document.Compiled
import TypedQuery.Json.OfValue
import TypedQuery.Proofs.Document.Fragments
import TypedQuery.Proofs.Plan.Preservation

/-!
# Reading selections off the data

What selections say, read off the data of the host without compiling anything: a field shows the
member of the host that it stands for, with the selections of each object in it, and `null` where
there is none. Where fields read members of the host only, the plan of a selection set gives just
this reading, on every object that the parameter of the plan may stand for.
-/

namespace TypedQuery

open Halting

/-! ### Plain schemas and plain data -/

/-- The object type of the values of a type, or of the items of its lists. -/
def Ty.objectType? (ty : Ty) : Option String :=
  match ty.core with
  | .object name => some name
  | .list element =>
    match element.core with
    | .object name => some name
    | _ => none
  | _ => none

/-- A field that reads a member of the host: a scalar, an object or a list of objects. It takes no
arguments, and everyone may read it. -/
structure FieldDefinition.Plain (field : FieldDefinition) : Prop where
  member : ∃ host, field.resolver = .member host
  ty : field.ty.isScalar = true ∨ field.ty.objectType?.isSome = true
  arguments : field.arguments = []
  requirement : field.requirement? = none

/-- A schema whose fields are plain, and whose types everyone may read. -/
structure Schema.Plain (schema : Schema) : Prop where
  fields : ∀ type name field, schema.field? type name = some field → field.Plain
  types : ∀ name type, schema.type? name = some type → type.requirement? = none

/-- The field is plain, as it can be checked. -/
def FieldDefinition.isPlain (field : FieldDefinition) : Bool :=
  (match field.resolver with
    | .member _ => true
    | _ => false) &&
  (field.ty.isScalar || field.ty.objectType?.isSome) && field.arguments.isEmpty &&
    field.requirement?.isNone

/-- All types of the schema and their fields are plain, as it can be checked. -/
def Schema.isPlain (schema : Schema) : Bool :=
  schema.types.all fun type =>
    type.2.requirement?.isNone && type.2.fields.all fun field => field.2.isPlain

/-- A field that is tested to be plain is plain. -/
theorem FieldDefinition.plain_of_isPlain {field : FieldDefinition} (h : field.isPlain = true) :
    field.Plain := by
  unfold isPlain at h
  simp only [Bool.and_eq_true, Bool.or_eq_true, List.isEmpty_iff, Option.isNone_iff_eq_none] at h
  obtain ⟨⟨⟨hmember, hty⟩, harguments⟩, hrequirement⟩ := h
  refine ⟨?_, hty, harguments, hrequirement⟩
  split at hmember
  · rename_i host hresolver
    exact ⟨host, hresolver⟩
  · cases hmember

/-- A schema that is tested to be plain is plain. -/
theorem Schema.plain_of_isPlain {schema : Schema} (h : schema.isPlain = true) : schema.Plain := by
  have htypes := List.all_eq_true.mp h
  constructor
  · intro type name field hfield
    refine Schema.of_forall_fields (P := fun _ _ field => field.Plain) ?_ hfield
    intro type htype field hmem
    have hfields := (Bool.and_eq_true_iff.mp (htypes type htype)).2
    exact FieldDefinition.plain_of_isPlain (List.all_eq_true.mp hfields field hmem)
  · intro name type htype
    have hnone := (Bool.and_eq_true_iff.mp (htypes _ (Entries.mem_of_find? htype))).1
    exact Option.isNone_iff_eq_none.mp hnone

namespace Value

/-- No list inside of a value has `null` among its items. -/
inductive Gapless : Value → Prop
  | scalar {value : Value} (h : value.isScalar = true) : Gapless value
  | list {items : List Value} (hnull : ∀ item ∈ items, item.isNull = false)
      (hitems : ∀ item ∈ items, Gapless item) : Gapless (.list items)
  | object {name : String} {entries : List (String × Value)}
      (hvalues : ∀ entry ∈ entries, Gapless entry.2) : Gapless (.object name entries)
  | record {fields : Signature} {values : List Value}
      (hvalues : ∀ value ∈ values, Gapless value) : Gapless (.record fields values)

/-- A value of a type without gaps in its lists. -/
def Fills (members : Members) (value : Value) (ty : Ty) : Prop :=
  value.Conforms members ty ∧ value.Gapless

/-- What is shown of an object that may be `null`. -/
def shownOrNull (shown : Value → Json) (value : Value) : Json :=
  if value.isNull then .null else shown value

/-- What is shown of an object or of a list of objects, any of which may be `null`. -/
def mapObjects (shown : Value → Json) : Value → Json
  | .list items => .array (items.map (shownOrNull shown))
  | other => shownOrNull shown other

end Value

/-- The value that the host has for a field of an object. Members that are missing are `null`. -/
def FieldDefinition.hostValue (field : FieldDefinition) (object : Value) : Value :=
  match field.resolver with
  | .member host => (object.member? host).getD .null
  | _ => .null

/-! ### The reading of selections -/

mutual

/-- What a selection shows of an object of a type. Fragments have been written out before. A field
without selections shows its whole value. -/
def Selection.reading (schema : Schema) (type : String) (object : Value) : Selection → Json
  | .spread _ _ => .null
  | .field name _ _ selections _ =>
    match schema.field? type name with
    | none => .null
    | some field =>
      match selections, field.ty.objectType? with
      | [], _ => (field.hostValue object).toJson (some schema)
      | _ :: _, none => .null
      | first :: rest, some inner =>
        (field.hostValue object).mapObjects fun item =>
          .object (Entries.ofList (readings schema inner item (first :: rest)))

/-- What selections show of an object of a type, under their response names. -/
def readings (schema : Schema) (type : String) (object : Value) :
    List Selection → List (String × Json)
  | [] => []
  | selection :: rest =>
    (selection.responseName, selection.reading schema type object) ::
      readings schema type object rest

end

/-! ### Values of plain data -/

namespace Value

variable {members : Members} {value : Value} {ty element : Ty} {items : List Value}

/-- A value of an object type is `null` or an object. -/
theorem Conforms.null_or_object {type : String} (h : value.Conforms members ty)
    (hcore : ty.core = .object type) :
    value = .null ∨ ∃ name entries, value = .object name entries := by
  cases h with
  | null => exact .inl rfl
  | object _ _ => exact .inr ⟨_, _, rfl⟩
  | any h | boolean h | int h _ | uint h _ | float h | decimal h | text h | guid h | dateTime h
  | enum h | list h _ | record h _ _ =>
    rw [h] at hcore
    cases hcore

/-- A value of a list type is `null` or a list. -/
theorem Conforms.null_or_list (h : value.Conforms members ty) (hcore : ty.core = .list element) :
    value = .null ∨ ∃ items, value = .list items := by
  cases h with
  | null => exact .inl rfl
  | list _ _ => exact .inr ⟨_, rfl⟩
  | any h | boolean h | int h _ | uint h _ | float h | decimal h | text h | guid h | dateTime h
  | enum h | object h _ | record h _ _ =>
    rw [h] at hcore
    cases hcore

/-- The value `null` fills every type. -/
theorem Fills.null : Value.null.Fills members ty :=
  ⟨.null, .scalar rfl⟩

/-- The items of a list that fills its type fill that of the elements, and none is `null`. -/
theorem Fills.item (h : (Value.list items).Fills members (.list element)) :
    ∀ item ∈ items, item.isNull = false ∧ item.Fills members element := by
  intro item hitem
  cases h.2 with
  | scalar hscalar => cases hscalar
  | list hnull hitems => exact ⟨hnull item hitem, h.1.item item hitem, hitems item hitem⟩

end Value

/-- The value that the host has for a field is read from the object, and is of the type of the
field. -/
theorem FieldDefinition.readMember_hostValue {schema : Schema} {field : FieldDefinition}
    {type name host : String} {ty : Ty} {object : Value}
    (hfield : schema.field? type name = some field) (hresolver : field.resolver = .member host)
    (hcore : ty.core = .object type) (hobject : object.Fills schema.members ty) :
    object.readMember host = .ok (field.hostValue object) ∧
      (field.hostValue object).Fills schema.members field.ty := by
  unfold hostValue
  rw [hresolver]
  rcases hobject.1.null_or_object hcore with rfl | ⟨label, entries, rfl⟩
  · exact ⟨rfl, .null⟩
  · refine ⟨rfl, ?_⟩
    change ((Entries.find? entries host).getD .null).Fills schema.members field.ty
    cases hfind : Entries.find? entries host with
    | none => exact .null
    | some value =>
      refine ⟨?_, ?_⟩
      · cases hobject.1 with
        | any h =>
          rw [h] at hcore
          cases hcore
        | object h hmembers =>
          cases h.symm.trans hcore
          exact hmembers host field.ty value ⟨name, field, hfield, hresolver, rfl⟩ hfind
      · cases hobject.2 with
        | scalar hscalar => cases hscalar
        | object hvalues => exact hvalues _ (Entries.mem_of_find? hfind)

/-! ### Plans that show a reading -/

/-- The value of a plan has a given JSON. -/
def Plan.Shows (plan : Plan) (services : Services) (environment : Environment) (schema : Schema)
    (json : Json) : Prop :=
  ∃ value, plan.eval services environment = .ok value ∧ value.toJson (some schema) = json

/-- A node without variables and services whose plan shows what `shown` tells of each object that
its parameter may stand for. -/
def Node.Shows (node : Node) (schema : Schema) (ty : Ty) (parameter : String)
    (shown : Value → Json) : Prop :=
  ∃ plan, node = .ofPlan plan ∧ ∀ services environment object,
    environment.lookup parameter = some object → object.Fills schema.members ty →
      plan.Shows services environment schema (shown object)

namespace Plan

variable {services : Services} {environment : Environment} {schema : Schema}
  {columns : Entries Plan} {shown : Entries Json}

/-- Columns that show JSON have values that are written as it. -/
theorem evalAll_shows (h : Entries.Related (fun plan json => plan.Shows services environment schema
    json) columns shown) :
    ∃ values, evalAll services environment (Entries.values columns) = .ok values ∧
      values.map (Value.toJson (some schema)) = Entries.values shown := by
  induction h with
  | nil => exact ⟨[], rfl, rfl⟩
  | cons hfirst _ ih =>
    obtain ⟨value, heval, hjson⟩ := hfirst.2
    obtain ⟨values, hevals, hjsons⟩ := ih
    refine ⟨value :: values, ?_, ?_⟩
    · unfold Entries.values at hevals ⊢
      rw [List.map_cons, evalAll, heval, hevals]
      rfl
    · unfold Entries.values at hjsons ⊢
      rw [List.map_cons, List.map_cons, hjson, hjsons]

/-- The record of columns shows what they show, each under its name. -/
theorem newRecord_shows (h : Entries.Related (fun plan json => plan.Shows services environment
    schema json) columns shown) (hnames : (Entries.names shown).Nodup) :
    (newRecord (Entries.ofList (columns.map fun column => (column.1, column.2.ty)))
      (Entries.values columns)).Shows services environment schema (.object shown) := by
  obtain ⟨values, heval, hjsons⟩ := evalAll_shows h
  have hfields : (columns.map fun column => (column.1, column.2.ty)).map Prod.fst =
      Entries.names shown := by
    rw [← h.names, List.map_map]
    rfl
  rw [Entries.ofList_of_nodup (by rw [Entries.names, hfields]; exact hnames)]
  have hlength : values.length =
      (columns.map fun column => (column.1, column.2.ty)).length := by
    have hshown := congrArg List.length hjsons
    rw [List.length_map, Entries.values, List.length_map, ← h.length_eq] at hshown
    rw [hshown, List.length_map]
  refine ⟨.record (columns.map fun column => (column.1, column.2.ty)) values, ?_, ?_⟩
  · unfold newRecord
    rw [eval, heval]
    exact congrArg Except.ok (Value.newRecord_of_length hlength)
  · rw [Value.toJson, Value.itemsToJson_eq_map, hjsons, hfields, Entries.zip_names_values,
      Entries.ofList_of_nodup hnames]

/-- Where a body shows each item of a list, the items can be shown one after another. -/
theorem mapM_shows {items : List Value} {body : Value → Except RunFault Value}
    {shown : Value → Json}
    (h : ∀ item ∈ items, ∃ value, body item = .ok value ∧
      value.toJson (some schema) = shown item) :
    ∃ values, items.mapM body = .ok values ∧
      values.map (Value.toJson (some schema)) = items.map shown := by
  induction items with
  | nil => exact ⟨[], rfl, rfl⟩
  | cons item rest ih =>
    obtain ⟨⟨value, heval, hjson⟩, hrest⟩ := List.forall_mem_cons.mp h
    obtain ⟨values, hevals, hjsons⟩ := ih hrest
    refine ⟨value :: values, ?_, ?_⟩
    · rw [List.mapM_cons, heval, hevals]
      rfl
    · rw [List.map_cons, List.map_cons, hjson, hjsons]

/-- A projection shows each object of a list, if its body shows the object that the parameter stands
for. -/
theorem project_shows {source body : Plan} {name : String} {item : Ty} {shown : Value → Json}
    (hbody : ∀ object, object.Fills schema.members item →
      body.Shows services ((name, object) :: environment) schema (shown object))
    {value : Value} (heval : source.eval services environment = .ok value)
    (hvalue : value.Fills schema.members (.list item)) :
    (source.project name body).Shows services environment schema (value.mapObjects shown) := by
  unfold Plan.project
  rcases hvalue.1.null_or_list rfl with rfl | ⟨items, rfl⟩
  · refine ⟨.null, ?_, rfl⟩
    rw [Plan.eval, heval]
    rfl
  · have hitems : ∀ object ∈ items, ∃ value,
        body.eval services ((name, object) :: environment) = .ok value ∧
          value.toJson (some schema) = Value.shownOrNull shown object := by
      intro object hobject
      obtain ⟨hnull, hfills⟩ := hvalue.item object hobject
      unfold Value.shownOrNull
      rw [hnull, if_neg Bool.false_ne_true]
      exact hbody object hfills
    obtain ⟨values, hvalues, hjsons⟩ := mapM_shows hitems
    refine ⟨.list values, ?_, ?_⟩
    · rw [Plan.eval, heval]
      change (do return Value.list (← items.mapM fun object =>
        body.eval services ((name, object) :: environment))) = _
      rw [hvalues]
      rfl
    · rw [Value.toJson, Value.itemsToJson_eq_map, hjsons]
      rfl

/-- A body under a binding shows the object that is bound, and `null` if there is none. -/
theorem given_shows {source body : Plan} {name object : String} {ty : Ty} {shown : Value → Json}
    (hobject : ty.core = .object object)
    (hbody : ∀ value, value.Fills schema.members ty →
      body.Shows services ((name, value) :: environment) schema (shown value))
    {value : Value} (heval : source.eval services environment = .ok value)
    (hvalue : value.Fills schema.members ty) :
    (source.given name body).Shows services environment schema (value.mapObjects shown) := by
  unfold Plan.given
  rcases hvalue.1.null_or_object hobject with rfl | ⟨label, entries, rfl⟩
  · refine ⟨.null, ?_, rfl⟩
    rw [Plan.eval, heval]
    rfl
  · obtain ⟨result, hresult, hjson⟩ := hbody _ hvalue
    refine ⟨result, ?_, hjson⟩
    rw [Plan.eval, heval]
    exact hresult

end Plan

/-! ### Fields of plain schemas -/

namespace Scope

variable {scope : Scope} {capture : Capture} {claims : Claims}

/-- Without sequence arguments a list stays as it is. -/
theorem applySequence_nil (caller node : Node) (names : List String) :
    scope.applySequence capture [] caller names node = pure node := by
  induction names with
  | nil => rfl
  | cons name rest ih => exact ih

/-- A node is the member of a parameter that a field of a type reads. -/
def ReadsField (schema : Schema) (parameter : Plan) (type name : String) (node : Node) : Prop :=
  ∃ field host, schema.field? type name = some field ∧ field.resolver = .member host ∧
    node = .ofPlan (parameter.member host field.ty)

/-- A plain field without arguments compiles to a node that reads its member. -/
theorem compileObjectField_plain (hschema : scope.schema.Plain) (parameter : Plan)
    (type name : String) :
    Ensures (scope.compileObjectField capture claims (.ofPlan parameter) type name [])
      (ReadsField scope.schema parameter type name) := by
  unfold compileObjectField
  split
  · exact .fail _
  · rename_i field hfield
    obtain ⟨host, hresolver⟩ := (hschema.fields type name field hfield).member
    refine .check fun _ _ => .check fun values hvalues => .check fun bound _ => ?_
    cases hvalues
    unfold fieldCompiler
    rw [compileField_member hresolver, pure_bind]
    unfold List.filter
    rw [applySequence_nil]
    exact .pure ⟨field, host, hfield, hresolver, rfl⟩

/-- A field without arguments that compiles is the member of its parent. -/
theorem compileBareField_plain (hschema : scope.schema.Plain) {ty : Ty} {type : String}
    (hcore : ty.core = .object type) (parameter name : String) :
    Ensures (scope.compileBareField capture claims (.ofPlan (.param ty parameter)) name [])
      (ReadsField scope.schema (.param ty parameter) type name) := by
  have hunderlying : ty.underlying.core = .object type := by rw [Ty.core_underlying, hcore]
  have hty : (Node.ofPlan (.param ty parameter)).ty.underlying = ty.underlying := rfl
  have hfinish (node : Node)
      (hnode : ReadsField scope.schema (.param ty parameter) type name node) :
      Ensures (do
        Halting.ofExcept (scope.schema.authorizeTy claims node.ty)
        return node : Compile Node) (ReadsField scope.schema (.param ty parameter) type name) :=
    .check fun _ _ => .pure hnode
  unfold compileBareField
  rw [hty]
  split
  · rename_i found hfound
    rw [hfound] at hunderlying
    cases hunderlying
    exact .bind (compileObjectField_plain hschema _ type name) hfinish
  · rename_i hobject
    refine .bind ?_ hfinish
    unfold resolve
    rw [hty]
    split
    · rename_i found hfound
      exact absurd hfound (hobject found)
    · rename_i hfound
      rw [hfound] at hunderlying
      cases hunderlying
    · rename_i hfound
      rw [hfound] at hunderlying
      cases hunderlying
    · exact .fail _

/-- Selections are made from objects: from those of a plain type itself, or from the items of its
lists. -/
theorem selectedTy_plain {ty item : Ty} {overItems : Bool}
    (hplain : ty.isScalar = true ∨ ty.objectType?.isSome = true)
    (h : selectedTy ty = .ok (item, overItems)) :
    ∃ inner, ty.objectType? = some inner ∧ item.core = .object inner ∧
      if overItems then ty = .list item else ty.core = .object inner := by
  unfold selectedTy at h
  split at h
  · rename_i element
    cases h
    rcases hplain with hscalar | hsome
    · cases hscalar
    · obtain ⟨inner, hinner⟩ := Option.isSome_iff_exists.mp hsome
      refine ⟨inner, hinner, ?_, rfl⟩
      unfold Ty.objectType? at hinner
      simp only [Ty.core] at hinner
      split at hinner
      · rename_i found hfound
        cases hinner
        exact hfound
      · cases hinner
  · split at h
    · rename_i hmembers
      cases h
      have hcore := Ty.core_underlying ty
      unfold Ty.hasMembers at hmembers
      split at hmembers
      · rename_i inner hinner
        rw [hinner] at hcore
        refine ⟨inner, ?_, by rw [hinner]; rfl, hcore.symm⟩
        unfold Ty.objectType?
        rw [← hcore]
        rfl
      · rename_i fields hrecord
        rw [hrecord] at hcore
        simp [Ty.isScalar, Ty.objectType?, ← hcore, Ty.core] at hplain
      · rename_i hany
        rw [hany] at hcore
        simp [Ty.isScalar, Ty.objectType?, ← hcore, Ty.core] at hplain
      · cases hmembers
    · cases h

/-- A selection set on a plain source shows each object of the source, and `null` where there is
none, if its record shows the object that the parameter stands for. -/
theorem selectOn_plain {schema : Schema} {source : Plan} {path : List String}
    {build : Node → Run FieldFailure Node} (shown : String → Value → Json)
    (hplain : source.ty.isScalar = true ∨ source.ty.objectType?.isSome = true)
    (hbuild : ∀ inner item name, item.core = .object inner →
      Ensures (build (.ofPlan (.param item name))) fun node =>
        node.Shows schema item name (shown inner)) :
    Ensures (selectOn (.ofPlan source) path build) fun node =>
      ∃ inner plan, source.ty.objectType? = some inner ∧ node = .ofPlan plan ∧
        ∀ services environment value, source.eval services environment = .ok value →
          value.Fills schema.members source.ty →
            plan.Shows services environment schema (value.mapObjects (shown inner)) := by
  refine .check fun ⟨item, overItems⟩ hselected => ?_
  refine .bind (.of_forall _ fun _ => trivial) fun name _ => ?_
  obtain ⟨inner, hinner, hitem, hsource⟩ := selectedTy_plain hplain (eq_ok_of_mapError hselected)
  refine .bind (hbuild inner item name hitem) fun record hrecord => .pure ?_
  obtain ⟨body, rfl, hbody⟩ := hrecord
  cases overItems with
  | true =>
    refine ⟨inner, source.project name body, hinner, rfl, ?_⟩
    intro services environment value heval hvalue
    change source.ty = .list item at hsource
    rw [hsource] at hvalue
    exact Plan.project_shows (fun object => hbody services _ object List.lookup_cons_self) heval
      hvalue
  | false =>
    refine ⟨inner, source.given name body, hinner, rfl, ?_⟩
    intro services environment value heval hvalue
    change source.ty.core = .object inner at hsource
    have hfills : value.Fills schema.members item :=
      ⟨hvalue.1.of_core_eq (hsource.trans hitem.symm), hvalue.2⟩
    exact Plan.given_shows hitem (fun object => hbody services _ object List.lookup_cons_self)
      heval hfills

/-- The columns of a record under construction show what `shown` tells of each object that the
parameter may stand for. -/
def ColumnsShow (schema : Schema) (ty : Ty) (parameter : String) (columns : Entries Plan)
    (shown : Value → Entries Json) : Prop :=
  ∀ services environment object, environment.lookup parameter = some object →
    object.Fills schema.members ty →
      Entries.Related (fun plan json => Plan.Shows plan services environment schema json) columns
        (shown object)

/-- The record of columns shows the object of what they show. -/
theorem columnsNode_shows {schema : Schema} {ty : Ty} {parameter : String} {record : Plan}
    {columns : Entries Plan} {shown : Value → List (String × Json)}
    (hcolumns : ColumnsShow schema ty parameter columns fun object =>
      Entries.ofList (shown object)) :
    Ensures (columnsNode (.ofPlan record) columns) fun node =>
      node.Shows schema ty parameter fun object => .object (Entries.ofList (shown object)) := by
  refine .bind (Run.recordType_ensures _) fun signature hsignature => .pure ⟨_, rfl, ?_⟩
  subst hsignature
  intro services environment object hlookup hobject
  exact Plan.newRecord_shows (hcolumns services environment object hlookup hobject)
    (Entries.nodup_names_ofList _)

mutual

/-- A selection that compiles on a parameter shows the reading of the selection. -/
theorem compileSelection_shows (hschema : scope.schema.Plain) {ty : Ty} {type : String}
    (hcore : ty.core = .object type) (path : List String) (parameter : String) :
    (selection : Selection) → selection.argumentless = true →
      Ensures (scope.compileSelection capture claims path (.ofPlan (.param ty parameter)) selection)
        fun node => node.Shows scope.schema ty parameter fun object =>
          selection.reading scope.schema type object
  | .spread fragment _, _ => by
    unfold compileSelection
    exact .fail _
  | .field name alias? arguments selections _, hselection => by
    unfold Selection.argumentless at hselection
    obtain ⟨hnone, hinner⟩ := Bool.and_eq_true_iff.mp hselection
    cases List.isEmpty_iff.mp hnone
    unfold compileSelection
    refine .bind (Ensures.mapFault (compileBareField_plain hschema hcore parameter name))
      fun node hnode => ?_
    obtain ⟨field, host, hfield, hresolver, rfl⟩ := hnode
    have hread {services : Services} {environment : Environment} {object : Value}
        (hlookup : environment.lookup parameter = some object)
        (hobject : object.Fills scope.schema.members ty) :
        (Plan.member (.param ty parameter) host field.ty).eval services environment =
          .ok (field.hostValue object) := by
      unfold Plan.member
      rw [Plan.eval, Plan.eval, hlookup]
      exact (FieldDefinition.readMember_hostValue hfield hresolver hcore hobject).1
    -- without selections the member is shown as it is, and otherwise a record of columns on it
    match selections, hinner with
    | [], _ =>
      refine .pure ⟨_, rfl, fun services environment object hlookup hobject => ?_⟩
      refine ⟨_, hread hlookup hobject, ?_⟩
      unfold Selection.reading
      rw [hfield]
    | first :: rest, hinner =>
      have hrecord (inner : String) (item : Ty) (parameter : String)
          (hitem : item.core = .object inner) :
          Ensures (do
            let (record, columns) ← scope.compileColumns capture claims
              (path ++ [alias?.getD name]) (.ofPlan (.param item parameter)) (first :: rest)
              (.ofPlan (.param item parameter)) []
            columnsNode record columns) fun node =>
              node.Shows scope.schema item parameter fun object =>
                .object (Entries.ofList (readings scope.schema inner object (first :: rest))) := by
        have hempty : ColumnsShow scope.schema item parameter [] fun _ => [] :=
          fun _ _ _ _ _ => .nil
        refine .bind (compileColumns_shows hschema hitem _ parameter (first :: rest) hinner hempty)
          fun result hresult => ?_
        obtain ⟨plan, hplan, hcolumns⟩ := hresult
        obtain ⟨record, columns⟩ := result
        cases hplan
        exact columnsNode_shows hcolumns
      refine .mono (selectOn_plain _ (hschema.fields type name field hfield).ty hrecord)
        fun node hnode => ?_
      obtain ⟨inner, plan, hobject, rfl, hplan⟩ := hnode
      change field.ty.objectType? = some inner at hobject
      refine ⟨plan, rfl, fun services environment object hlookup hfills => ?_⟩
      unfold Selection.reading
      rw [hfield]
      dsimp only
      rw [hobject]
      exact hplan services environment _ (hread hlookup hfills)
        (FieldDefinition.readMember_hostValue hfield hresolver hcore hfills).2

/-- Selections that compile on a parameter add their readings to what the columns show. -/
theorem compileColumns_shows (hschema : scope.schema.Plain) {ty : Ty} {type : String}
    (hcore : ty.core = .object type) (path : List String) (parameter : String) :
    (selections : List Selection) → areArgumentless selections = true →
      ∀ {record : Plan} {columns : Entries Plan} {shown : Value → Entries Json},
        ColumnsShow scope.schema ty parameter columns shown →
        Ensures (scope.compileColumns capture claims path (.ofPlan (.param ty parameter)) selections
          (.ofPlan record) columns) fun result => ∃ plan, result.1 = .ofPlan plan ∧
            ColumnsShow scope.schema ty parameter result.2 fun object =>
              Entries.extend (shown object) (readings scope.schema type object selections)
  | [], _, record, columns, shown, hcolumns => by
    unfold compileColumns
    exact .pure ⟨record, rfl, hcolumns⟩
  | selection :: rest, hselections, record, columns, shown, hcolumns => by
    unfold areArgumentless at hselections
    obtain ⟨hselection, hrest⟩ := Bool.and_eq_true_iff.mp hselections
    unfold compileColumns
    refine .bind (compileSelection_shows hschema hcore path parameter selection hselection)
      fun child hchild => ?_
    obtain ⟨plan, rfl, hplan⟩ := hchild
    have hnext : ColumnsShow scope.schema ty parameter
        (Entries.insert columns selection.responseName plan) fun object =>
          Entries.insert (shown object) selection.responseName
            (selection.reading scope.schema type object) :=
      fun services environment object hlookup hobject =>
        (hcolumns services environment object hlookup hobject).insert
          (hplan services environment object hlookup hobject)
    exact compileColumns_shows hschema hcore path parameter rest hrest hnext

end

end Scope

end TypedQuery
