import TypedQuery.Proofs.Document.Paths
import TypedQuery.Proofs.Document.Progress
import TypedQuery.Proofs.Query.Items

/-!
# Selections on items

A selection set on a list makes of each item the record that it makes of a single value, with one
exception. A single value that is `null` stays `null`, but a record is made of an item that is
`null`, as of any other item.
-/

namespace TypedQuery

open Halting

namespace Plan

variable {source body : Plan} {services : Services} {environment : Environment} {name : String}
  {items? : Option (List Value)} {value : Value} {made : Value → Except RunFault Value}

/-- A projection makes of a list what its body makes of the items. -/
theorem eval_project (hsource : source.eval services environment = .ok (.ofSequence items?))
    (hbody : ∀ item, body.eval services ((name, item) :: environment) = made item) :
    (source.project name body).eval services environment =
      items?.elim (.ok .null) fun items => (items.mapM made).map .list := by
  unfold project eval
  rw [hsource]
  simp only [hbody]
  cases items? with
  | none => rfl
  | some items =>
    change (do return Value.list (← items.mapM made)) = (items.mapM made).map .list
    cases items.mapM made <;> rfl

/-- A value that is not `null` becomes what the body makes of it. -/
theorem eval_given (hsource : source.eval services environment = .ok value)
    (hbody : ∀ item, body.eval services ((name, item) :: environment) = made item) :
    (source.given name body).eval services environment =
      if value.isNull then .ok .null else made value := by
  unfold given eval
  rw [hsource]
  simp only [hbody]
  rfl

end Plan

namespace Scope

variable {scope : Scope} {claims : Claims} {path : List String} {selections : List Selection}
  {element : Ty} {session final other last : Session} {record base : Node}

/-- The record of a value compiles at every path to the same. -/
theorem recordOn_below (path : List String) (value : Node) :
    scope.recordOn claims path selections value =
      (scope.recordOn claims [] selections value).mapFault (.below path) := by
  unfold recordOn
  rw [mapFault_bind, compileColumns_below]
  rfl

/-- Selections make records. -/
theorem recordOn_isRecord (value : Node) :
    Ensures (scope.recordOn claims path selections value) fun node =>
      ∃ signature values, node.plan = .newRecord signature values :=
  .bind (.of_forall _ fun _ => trivial) fun _ _ =>
    .bind (.of_forall _ fun _ => trivial) fun _ _ => .pure ⟨_, _, rfl⟩

/-- What selections make of an item is what they make of it as a query in its context. -/
structure RecordOnItem (element : Ty) (n : Nat) (record base : Node) : Prop where
  sound : record.Sound .none (.only (parameterName n) element)
  ty : record.ty = base.ty
  services : record.services = base.services
  eval : ∀ (services : Services) (item : Value),
    record.plan.eval services ((parameterName n, item) :: Query.environmentOf record item) =
      base.plan.eval services (Query.environmentOf base item)

/-- Selections compile on an item where they compile in the context of the item. -/
theorem recordOn_on_item (hmethods : scope.methods.Steady) (claims : Claims) (path : List String)
    (selections : List Selection) (element : Ty) (session other : Session) :
    (∃ record final base last,
      scope.recordOn claims path selections (itemNode element session) (inside session) =
        .ok record final ∧
      scope.recordOn claims [] selections (context element) other = .ok base last ∧
      RecordOnItem element session.parameters record base) ∨
    ∃ halt final halt' last,
      scope.recordOn claims path selections (itemNode element session) (inside session) =
        .error halt final ∧
      scope.recordOn claims path selections (context element) other = .error halt' last := by
  have hfirst := apart_parameterName session.parameters
  have hsecond := apart_contextName other.parameters
  have hlockstep := recordOn_lockstep (Likeness.parameter_alike hfirst hsecond)
    (hmethods.nameless hfirst hsecond) (Likeness.root_alike hfirst hsecond element) claims path
    selections
  have hsessions : (Likeness.renamed hfirst hsecond).sessions (inside session) other :=
    ⟨0, rfl, rfl⟩
  rcases hlockstep.outcome hsessions with
    ⟨record, base, final, last, hrun, hrun', halike, -⟩ | ⟨halt, final, last, hrun, hrun', -⟩
  · have hsound := recordOn_ensures hmethods.sound _ _ _ hrun
    rw [recordOn_below, mapFault_eq_ok] at hrun'
    exact Or.inl ⟨record, final, base, last, hrun, hrun', hsound, halike.plan.ty_eq,
      halike.services, eval_on_item halike hsound⟩
  · exact Or.inr ⟨halt, final, halt, last, hrun, hrun'⟩

variable {name : String} {alias? : Option String} {arguments : List (String × Argument)}
  {position : Position} {first : Selection} {rest : List Selection} {parent source node : Node}
  {overItems : Bool} {between : Session} {services : Services} {environment : Environment}

/-- Selections on a field are made on the next parameter, which stands for its value or for an item
of it. -/
theorem compileSelection_of_bare
    (hsource : (scope.compileBareField .parameter claims parent name arguments) session =
      .ok source between) (hselected : selectedTy source.ty = .ok (element, overItems)) :
    (scope.compileSelection .parameter claims path parent
        (.field name alias? arguments (first :: rest) position)) session = .ok node final ↔
      ∃ record, scope.recordOn claims (path ++ [alias?.getD name]) (first :: rest)
          (itemNode element between) (inside between) = .ok record final ∧
        node = source.join record
          (if overItems then source.plan.project (parameterName between.parameters) record.plan
            else source.plan.given (parameterName between.parameters) record.plan) := by
  rw [compileSelection_field, bind_of_ok (mapFault_eq_ok.mpr hsource)]
  refine selectOn_eq_ok.trans ⟨?_, ?_⟩
  · rintro ⟨_, _, record, hitem, hrecord, hnode⟩
    cases hselected.symm.trans hitem
    exact ⟨record, hrecord, hnode⟩
  · rintro ⟨record, hrecord, hnode⟩
    exact ⟨element, overItems, record, hselected, hrecord, hnode⟩

/-- Inside of a query with its variables, a record is made of an item as in the context of it. -/
theorem RecordOnItem.eval_eq_run {n : Nat} (h : RecordOnItem element n record base)
    (hkept : record.KeptIn environment)
    (hservices : ∀ service ∈ base.services, Entries.contains services service = true)
    (item : Value) :
    record.plan.eval services ((parameterName n, item) :: environment) =
      (Query.ofNode base element).run services item := by
  rw [Query.run_ofNode hservices, ← h.eval]
  exact h.sound.eval_keptIn hkept services item

/-- A list with selections becomes the list of what the record `base` is of its items, and it is
`null` where the list is. -/
structure SelectsOfItems (list base : Node) (element : Ty) (node : Node) : Prop where
  ty : node.ty = .list base.ty
  eval : ∀ (services : Services) (environment : Environment) (items? : Option (List Value)),
    (∀ service ∈ node.services, Entries.contains services service = true) →
    node.KeptIn environment →
    list.plan.eval services environment = .ok (.ofSequence items?) →
      node.plan.eval services environment = items?.elim (.ok .null) fun items =>
        (items.mapM ((Query.ofNode base element).run services)).map .list

/-- A single value with selections becomes what the record `base` is of it, or stays `null`. -/
structure SelectsOfValue (single base : Node) (element : Ty) (node : Node) : Prop where
  ty : node.ty = base.ty
  eval : ∀ (services : Services) (environment : Environment) (value : Value),
    (∀ service ∈ node.services, Entries.contains services service = true) →
    node.KeptIn environment →
    single.plan.eval services environment = .ok value →
      node.plan.eval services environment =
        if value.isNull then .ok .null else (Query.ofNode base element).run services value

/-- Where the services of a joined node are, those of the record are. -/
theorem RecordOnItem.contains_of_join {n : Nat} {plan : Plan}
    (h : RecordOnItem element n record base)
    (hservices : ∀ service ∈ (source.join record plan).services,
      Entries.contains services service = true) :
    ∀ service ∈ base.services, Entries.contains services service = true :=
  fun service hmem => hservices service
    ((Node.join_extends_right source record plan).services service (h.services ▸ hmem))

/-- A record on each item of a list selects from the items. -/
theorem RecordOnItem.selectsOfItems {n : Nat} (h : RecordOnItem element n record base)
    (honce : source.CapturesOnce) :
    SelectsOfItems source base element
      (source.join record (source.plan.project (parameterName n) record.plan)) where
  ty := congrArg Ty.list h.ty
  eval services environment items? hservices hkept hsource := by
    exact Plan.eval_project hsource
      (h.eval_eq_run (hkept.of_join_right honce) (h.contains_of_join hservices))

/-- A record on a single value selects from the value. -/
theorem RecordOnItem.selectsOfValue {n : Nat} (h : RecordOnItem element n record base)
    (honce : source.CapturesOnce) (hbase : ∃ fields values, base.plan = .newRecord fields values) :
    SelectsOfValue source base element
      (source.join record (source.plan.given (parameterName n) record.plan)) where
  ty := by
    obtain ⟨fields, values, hplan⟩ := hbase
    have hty : record.plan.ty = base.plan.ty := h.ty
    change record.plan.ty.orNull = base.plan.ty
    rw [hty, hplan]
    rfl
  eval services environment value hservices hkept hsource := by
    exact Plan.eval_given hsource
      (h.eval_eq_run (hkept.of_join_right honce) (h.contains_of_join hservices))

/-- A record is never `null`, not even that of a `null`. -/
theorem isNull_run_of_isRecord {services : Services} {value made : Value}
    (hbase : ∃ fields values, base.plan = .newRecord fields values)
    (hrun : (Query.ofNode base element).run services value = .ok made) : made.isNull = false := by
  obtain ⟨fields, values, hplan⟩ := hbase
  obtain ⟨-, heval⟩ := Query.run_ofNode_eq_ok.mp hrun
  rw [hplan] at heval
  unfold Plan.newRecord Plan.eval at heval
  cases hall : Plan.evalAll services (Query.environmentOf base value) values with
  | ok all =>
    rw [hall] at heval
    cases heval
    rfl
  | error fault =>
    rw [hall] at heval
    cases heval

variable {parentTy otherTy : Ty} {reference otherReference otherName : String}
  {otherArguments : List (String × Argument)} {list single : Node} {otherBetween : Session}

/-- Selections that compile on the items of a list compile on a single value of the same type. They
make of each item the record that they make of the value, if the value is not `null`: they leave a
value that is `null` as it is, but not an item that is. -/
theorem select_items (hmethods : scope.methods = .standard)
    (hlist : (scope.compileBareField .parameter claims (.ofPlan (.param parentTy reference)) name
      arguments) session = .ok list between)
    (hitems : list.ty = .list element)
    (hsingle : (scope.compileBareField .parameter claims (.ofPlan (.param otherTy otherReference))
      otherName otherArguments) other = .ok single otherBetween)
    (hvalue : selectedTy single.ty = .ok (element, false))
    (hnode : (scope.compileSelection .parameter claims path (.ofPlan (.param parentTy reference))
      (.field name alias? arguments (first :: rest) position)) session = .ok node final)
    (otherPath : List String) (otherAlias? : Option String) (otherPosition : Position) :
    ∃ own last base recorded,
      (scope.compileSelection .parameter claims otherPath
        (.ofPlan (.param otherTy otherReference))
        (.field otherName otherAlias? otherArguments (first :: rest) otherPosition)) other =
          .ok own last ∧
      (scope.recordOn claims [] (first :: rest) (context element)) default = .ok base recorded ∧
      SelectsOfItems list base element node ∧ SelectsOfValue single base element own ∧
      ∀ services value made, (Query.ofNode base element).run services value = .ok made →
        made.isNull = false := by
  have hsteady : scope.methods.Steady := hmethods ▸ MethodLibrary.steady_standard
  have honce : scope.methods.CapturesOnce := hmethods ▸ MethodLibrary.capturesOnce_standard
  have hparameter : ∀ ty name, (Node.ofPlan (.param ty name)).CapturesOnce :=
    fun _ _ => List.nodup_nil
  have hlistOnce := compileBareField_once honce (hparameter _ _) _ _ _ hlist
  have hsingleOnce := compileBareField_once honce (hparameter _ _) _ _ _ hsingle
  have hselected : selectedTy list.ty = .ok (element, true) := by
    rw [hitems]
    rfl
  obtain ⟨record, hrecord, rfl⟩ := (compileSelection_of_bare hlist hselected).mp hnode
  obtain ⟨_, _, base, recorded, hfound, hbase, hitem⟩ | ⟨_, _, _, _, hfails, -⟩ :=
    recordOn_on_item hsteady claims (path ++ [alias?.getD name]) (first :: rest) element between
      default
  · cases hrecord.symm.trans hfound
    have hrecords := recordOn_isRecord (context element) _ _ _ hbase
    obtain ⟨ownRecord, last, _, _, hown, hsame, hownItem⟩ | ⟨_, _, _, _, -, hfails⟩ :=
      recordOn_on_item hsteady claims (otherPath ++ [otherAlias?.getD otherName]) (first :: rest)
        element otherBetween default
    · cases hbase.symm.trans hsame
      refine ⟨_, last, base, recorded,
        (compileSelection_of_bare hsingle hvalue).mpr ⟨ownRecord, hown, rfl⟩, hbase,
        hitem.selectsOfItems hlistOnce, hownItem.selectsOfValue hsingleOnce hrecords,
        fun services value made => isNull_run_of_isRecord hrecords⟩
    · rw [recordOn_below] at hfails
      cases (mapFault_eq_ok.mpr hbase).symm.trans hfails
  · cases hrecord.symm.trans hfails

end Scope

/-- A host with a list of people and one of them as their chief. -/
def teamHost : Host where
  schema := .ofParts "Query" [] [
    .ofFields "Query" none [
      .ofMember "people" (.list (.object "Person")), .ofMember "chief" (.object "Person")],
    .ofFields "Person" none [.ofMember "name" .string]] []
  methods := .standard
  depth := 1

/-- The name is selected on a field of the host. -/
def teamSelection (field : String) : Run FieldFailure Node :=
  (teamHost.scope []).compileSelection .parameter .none [] (Scope.context (.object "Query"))
    (.field field none [] [.field "name" none [] [] .start] .start)

namespace Scope

/-- An item that is `null` becomes a record with a name that is `null`, and a chief who is `null`
stays so. -/
theorem select_items_team :
    let ann := Value.object "Person" [("name", .text "Ann")]
    let store := Value.object "Query" [("people", .list [ann, .null]), ("chief", .null)]
    let record (name : Value) := Value.record [("name", .string)] [name]
    ∃ node final own last,
      teamSelection "people" default = .ok node final ∧
      teamSelection "chief" default = .ok own last ∧
      (Query.ofNode node (.object "Query")).run [] store =
        .ok (.list [record (.text "Ann"), record .null]) ∧
      (Query.ofNode own (.object "Query")).run [] store = .ok .null := by
  intro ann store record
  have hlist : ((teamHost.scope []).compileBareField .parameter .none (context (.object "Query"))
      "people" []) default = .ok _ _ := rfl
  have hsingle : ((teamHost.scope []).compileBareField .parameter .none
      (context (.object "Query")) "chief" []) default = .ok _ _ := rfl
  have hpeople : teamSelection "people" default = .ok _ _ := rfl
  obtain ⟨own, last, base, _, hown, hbase, hitems, hvalue, -⟩ :=
    select_items rfl hlist rfl hsingle rfl hpeople [] none .start
  cases hbase
  cases hown
  have hnone : ∀ service ∈ ([] : List String), Entries.contains ([] : Services) service = true :=
    fun _ h => absurd h List.not_mem_nil
  refine ⟨_, _, _, _, hpeople, rfl, ?_, ?_⟩
  · exact (Query.run_ofNode hnone).trans
      (hitems.eval [] _ (some [ann, .null]) hnone (Node.keptIn_environmentOf _ store) rfl)
  · exact (Query.run_ofNode hnone).trans
      (hvalue.eval [] _ .null hnone (Node.keptIn_environmentOf _ store) rfl)

end Scope

end TypedQuery
