import Mathlib.Data.List.ReduceOption
import TypedQuery.Proofs.Authorization.Exact

/-!
# Sequence arguments are method calls

A field of a document with sequence arguments is its node without them, on which `where`,
`orderBy`, `orderByDesc`, `skip` and `take` are called in this order, each if its argument is there.
The order in which the arguments are written does not matter, of several values the last one counts,
and `null` counts as none. So a field that takes no other arguments is the expression of these calls
on its name.
-/

namespace TypedQuery

open Halting

/-- The text of an expression. -/
def Value.IsSource (value : Value) (expr : Expr) : Prop :=
  ∃ source, value = .text source ∧ Expr.read source = .ok expr

/-- A count of 64 bits. -/
def Value.IsCount (value : Value) (count : Int64) : Prop :=
  value.integer? = some count.toInt

/-- The value that counts under a name: the last one, unless it is `null`. -/
def Entries.effective? (values : Entries Value) (name : String) : Option Value :=
  (find? values.reverse name).filter fun value => !value.isNull

/-- Calls of methods with one argument each, one on the other. -/
def Expr.called (receiver : Expr) (calls : List (String × Expr)) : Expr :=
  calls.foldl (fun receiver call => .call receiver call.1 [call.2]) receiver

/-- What sequence arguments ask for. -/
structure Sequencing where
  filter? : Option Expr
  orderBy? : Option Expr
  orderByDesc? : Option Expr
  skip? : Option Int64
  take? : Option Int64

namespace Sequencing

/-- A call for each argument, or none. -/
def calls? (sequencing : Sequencing) : List (Option (String × Expr)) :=
  [sequencing.filter?.map fun test => ("where", test),
    sequencing.orderBy?.map fun key => ("orderBy", key),
    sequencing.orderByDesc?.map fun key => ("orderByDesc", key),
    sequencing.skip?.map fun count => ("skip", .literal (.integer count)),
    sequencing.take?.map fun count => ("take", .literal (.integer count))]

/-- The calls in their order. -/
def calls (sequencing : Sequencing) : List (String × Expr) :=
  sequencing.calls?.reduceOption

/-- The arguments under their names ask for this: the value that counts under a name is the text of
the expression or the count, and there is none if nothing is asked for. -/
structure Reads (sequencing : Sequencing) (values : Entries Value) : Prop where
  filter : Option.Rel Value.IsSource (values.effective? "filter") sequencing.filter?
  orderBy : Option.Rel Value.IsSource (values.effective? "orderBy") sequencing.orderBy?
  orderByDesc : Option.Rel Value.IsSource (values.effective? "orderByDesc") sequencing.orderByDesc?
  skip : Option.Rel Value.IsCount (values.effective? "skip") sequencing.skip?
  take : Option.Rel Value.IsCount (values.effective? "take") sequencing.take?

end Sequencing

namespace FieldDefinition

/-- A field accepts a sequence argument of a name that it does not declare itself. -/
def sequences (field : FieldDefinition) (name : String) : Bool :=
  !(field.arguments.any fun argument => argument.name = name) &&
    field.sequenceArguments.accepts name

/-- The values of the sequence arguments. -/
def sequenceValues (field : FieldDefinition) (values : Entries Value) : Entries Value :=
  List.filter (fun entry => field.sequences entry.1) values

/-- The values of the arguments that the field declares, and of those that it does not know. -/
def ownValues (field : FieldDefinition) (values : Entries Value) : Entries Value :=
  List.filter (fun entry => !field.sequences entry.1) values

end FieldDefinition

namespace Scope

variable {scope : Scope} {claims : Claims} {parent caller node result : Node} {type name : String}
  {field : FieldDefinition} {arguments : List (String × Argument)} {values : Entries Value}
  {sequencing : Sequencing} {value : Value} {call : String × Expr} {expr : Expr}
  {session final : Session}

/-- The node of a field with arguments of its own. -/
def fieldNode (scope : Scope) (parent : Node) (name : String) (field : FieldDefinition)
    (values : Entries Value) : Compile Node := do
  let bound ← Halting.ofExcept (scope.schema.bindArguments name field.arguments values)
  scope.fieldCompiler .parameter parent field bound

/-- Calls methods one after another, each on what the one before it has made. -/
def callAll (scope : Scope) (caller : Node) (calls : List (String × Expr)) (node : Node) :
    Compile Node :=
  calls.foldlM (fun node call => scope.callMethod .parameter node call.1 [call.2] caller) node

/-- A method call compiles to the call on what its receiver compiles to. -/
theorem compile_call_eq (receiver : Expr) (method : String) (argument : Expr) :
    scope.compile caller (.call receiver method [argument]) = (do
      let node ← scope.compile caller receiver
      scope.callMethod .parameter node method [argument] caller) := by
  change scope.compileExpr _ _ _ _ = _
  unfold compileExpr
  rfl

/-- An expression of calls compiles to what the calls make of its receiver. -/
theorem compile_called (receiver : Expr) (calls : List (String × Expr)) :
    scope.compile caller (receiver.called calls) =
      scope.compile caller receiver >>= scope.callAll caller calls := by
  induction calls generalizing receiver with
  | nil => exact (bind_pure _).symm
  | cons call rest ih =>
    refine (ih (.call receiver call.1 [call.2])).trans ?_
    rw [compile_call_eq, bind_assoc]
    rfl

/-- An argument that is no count stands for a call with its expression. -/
theorem sequenceCall_source (hname : (name = "skip" || name = "take") = false)
    (h : value.IsSource expr) :
    sequenceCall name value = .ok (if name = "filter" then "where" else name, expr) := by
  obtain ⟨source, rfl, hread⟩ := h
  unfold sequenceCall
  rw [hname, if_neg Bool.false_ne_true]
  dsimp only [Value.text?]
  rw [hread]

/-- A count stands for a call with this count. -/
theorem sequenceCall_count {count : Int64} (hname : (name = "skip" || name = "take") = true)
    (h : value.IsCount count) :
    sequenceCall name value = .ok (name, .literal (.integer count)) := by
  unfold sequenceCall
  rw [if_pos hname, h]
  dsimp only
  rw [if_pos (IntKind.fits_toInt count), Int64.ofInt_toInt]

/-- What stands for a filter or an order is the text of an expression. -/
theorem exists_source_of_sequenceCall (hname : (name = "skip" || name = "take") = false)
    (h : sequenceCall name value = .ok call) : ∃ expr, value.IsSource expr := by
  unfold sequenceCall at h
  rw [hname, if_neg Bool.false_ne_true] at h
  cases value with
  | text source =>
    cases hread : Expr.read source with
    | ok expr => exact ⟨expr, source, rfl, hread⟩
    | error fault =>
      dsimp only [Value.text?] at h
      rw [hread] at h
      cases h
  | _ => cases h

/-- What stands for a part of a list is a count. -/
theorem exists_count_of_sequenceCall (hname : (name = "skip" || name = "take") = true)
    (h : sequenceCall name value = .ok call) : ∃ count, value.IsCount count := by
  unfold sequenceCall at h
  rw [if_pos hname] at h
  split at h
  · rename_i n hn
    split at h
    · rename_i hfits
      exact ⟨Int64.ofInt n, hn.trans (congrArg some (IntKind.toInt_ofInt hfits).symm)⟩
    · cases h
  · cases h

/-- An argument whose value counts is its call, and the others come after it. -/
theorem applySequence_cons {names : List String} (hvalue : values.effective? name = some value) :
    scope.applySequence .parameter values caller (name :: names) node = (do
      let call ← Halting.ofExcept (sequenceCall name value)
      let next ← scope.callMethod .parameter node call.1 [call.2] caller
      scope.applySequence .parameter values caller names next) := by
  obtain ⟨hfind, hpresent⟩ := Option.filter_eq_some_iff.mp hvalue
  have hlookup : values.reverse.lookup name = some value := hfind
  conv_lhs => unfold applySequence
  rw [hlookup]
  cases value with
  | null => cases hpresent
  | _ => rfl

/-- An argument without a value that counts is passed over. -/
theorem applySequence_cons_of_none {names : List String} (hvalue : values.effective? name = none) :
    scope.applySequence .parameter values caller (name :: names) node =
      scope.applySequence .parameter values caller names node := by
  conv_lhs => unfold applySequence
  cases hlookup : values.reverse.lookup name with
  | none => rfl
  | some value =>
    have hnull : value.isNull = true := by
      simpa using Option.filter_eq_none_iff.mp hvalue value hlookup
    cases value with
    | null => rfl
    | _ => cases hnull

/-- Sequence arguments are the calls that they stand for. -/
theorem applySequence_eq {names : List String} {calls? : List (Option (String × Expr))}
    (h : List.Forall₂ (fun name call? => Option.Rel
      (fun value call => sequenceCall name value = .ok call) (values.effective? name) call?)
      names calls?) :
    scope.applySequence .parameter values caller names node =
      scope.callAll caller calls?.reduceOption node := by
  induction h generalizing node with
  | nil => rfl
  | @cons name call? names calls? hfirst _ ih =>
    cases hvalue : values.effective? name with
    | none =>
      rw [hvalue] at hfirst
      cases hfirst
      rw [applySequence_cons_of_none hvalue, List.reduceOption_cons_of_none, ih]
    | some value =>
      rw [hvalue] at hfirst
      cases hfirst with
      | some hcall =>
        rw [applySequence_cons hvalue, hcall, List.reduceOption_cons_of_some]
        exact congrArg (scope.callMethod .parameter node _ _ caller >>= ·) (funext fun next => ih)

/-- Where sequence arguments are applied, every value that counts stands for a call. -/
theorem exists_call_of_applySequence {names : List String}
    (h : scope.applySequence .parameter values caller names node session = .ok result final)
    (hname : name ∈ names) (hvalue : values.effective? name = some value) :
    ∃ call, sequenceCall name value = .ok call := by
  induction names generalizing node session with
  | nil => cases hname
  | cons first rest ih =>
    cases hfirst : values.effective? first with
    | none =>
      rw [applySequence_cons_of_none hfirst] at h
      rcases List.mem_cons.mp hname with rfl | hname
      · cases hfirst.symm.trans hvalue
      · exact ih h hname
    | some other =>
      rw [applySequence_cons hfirst, check_eq_ok] at h
      obtain ⟨call, hcall, h⟩ := h
      obtain ⟨next, between, -, h⟩ := bind_eq_ok.mp h
      rcases List.mem_cons.mp hname with rfl | hname
      · cases hfirst.symm.trans hvalue
        exact ⟨call, hcall⟩
      · exact ih h hname

/-- What arguments ask for is what is applied. -/
theorem applySequence_of_reads (h : sequencing.Reads values) :
    scope.applySequence .parameter values caller SequenceArguments.names node =
      scope.callAll caller sequencing.calls node := by
  have hmap : ∀ {α : Type} {reads : Value → α → Prop} {value? : Option Value} {read? : Option α}
      {name : String} {call : α → String × Expr}, Option.Rel reads value? read? →
      (∀ value read, reads value read → sequenceCall name value = .ok (call read)) →
      Option.Rel (fun value call => sequenceCall name value = .ok call) value?
        (read?.map call) := by
    intro α reads value? read? name call hrel hcall
    cases hrel with
    | none => exact .none
    | some hreads => exact .some (hcall _ _ hreads)
  refine applySequence_eq (.cons ?_ (.cons ?_ (.cons ?_ (.cons ?_ (.cons ?_ .nil)))))
  · exact hmap h.filter fun _ _ => sequenceCall_source (by decide)
  · exact hmap h.orderBy fun _ _ => sequenceCall_source (by decide)
  · exact hmap h.orderByDesc fun _ _ => sequenceCall_source (by decide)
  · exact hmap h.skip fun _ _ => sequenceCall_count (by decide)
  · exact hmap h.take fun _ _ => sequenceCall_count (by decide)

/-- Where arguments are applied, they ask for something. -/
theorem exists_reads_of_applySequence
    (h : scope.applySequence .parameter values caller SequenceArguments.names node session =
      .ok result final) : ∃ sequencing : Sequencing, sequencing.Reads values := by
  have hcalls : ∀ name ∈ SequenceArguments.names, ∀ value, values.effective? name = some value →
      ∃ call, sequenceCall name value = .ok call := fun name hname value hvalue =>
    exists_call_of_applySequence h hname hvalue
  have hrel : ∀ {α : Type} {reads : Value → α → Prop} {value? : Option Value},
      (∀ value, value? = some value → ∃ read, reads value read) →
      ∃ read?, Option.Rel reads value? read? := by
    intro α reads value? hread
    cases value? with
    | none => exact ⟨none, .none⟩
    | some value =>
      obtain ⟨read, hread⟩ := hread value rfl
      exact ⟨some read, .some hread⟩
  have hsource : ∀ name ∈ ["filter", "orderBy", "orderByDesc"],
      ∃ expr?, Option.Rel Value.IsSource (values.effective? name) expr? := by
    intro name hname
    refine hrel fun value hvalue => ?_
    obtain ⟨call, hcall⟩ := hcalls name (List.mem_append_left ["skip", "take"] hname) value hvalue
    refine exists_source_of_sequenceCall ?_ hcall
    simp only [List.mem_cons, List.not_mem_nil, or_false] at hname
    rcases hname with rfl | rfl | rfl <;> decide
  have hcount : ∀ name ∈ ["skip", "take"],
      ∃ count?, Option.Rel Value.IsCount (values.effective? name) count? := by
    intro name hname
    refine hrel fun value hvalue => ?_
    obtain ⟨call, hcall⟩ := hcalls name
      (List.mem_append_right ["filter", "orderBy", "orderByDesc"] hname) value hvalue
    refine exists_count_of_sequenceCall ?_ hcall
    simpa using hname
  obtain ⟨filter?, hfilter⟩ := hsource "filter" (by simp)
  obtain ⟨orderBy?, horderBy⟩ := hsource "orderBy" (by simp)
  obtain ⟨orderByDesc?, horderByDesc⟩ := hsource "orderByDesc" (by simp)
  obtain ⟨skip?, hskip⟩ := hcount "skip" (by simp)
  obtain ⟨take?, htake⟩ := hcount "take" (by simp)
  exact ⟨⟨filter?, orderBy?, orderByDesc?, skip?, take?⟩,
    ⟨hfilter, horderBy, horderByDesc, hskip, htake⟩⟩

/-- The name of a field compiles to the field without arguments. -/
theorem compile_identifier (htype : parent.ty.underlying = .object type)
    (hfield : scope.schema.field? type name = some field) :
    scope.compile parent (.identifier name) = scope.fieldNode parent name field [] := by
  change scope.compileExpr _ _ _ _ = _
  unfold compileExpr resolve
  rw [htype]
  dsimp only
  rw [hfield]
  rfl

/-- A field without selections compiles as its name with the arguments does. -/
theorem compileSelection_bareField {path : List String} {alias? : Option String}
    {position : Position} :
    scope.compileSelection .parameter claims path parent
        (.field name alias? arguments [] position) session = .ok node final ↔
      scope.compileBareField .parameter claims parent name arguments session = .ok node final := by
  unfold compileSelection
  rw [bind_eq_ok]
  simp only [pure_eq_ok, mapFault_eq_ok]
  constructor
  · rintro ⟨_, _, h, rfl, rfl⟩
    exact h
  · exact fun h => ⟨node, final, h, rfl, rfl⟩

/-- A field of an object without selections is its node, to which the sequence arguments are
applied, if the caller meets the requirements of the field and of the type of the result. -/
theorem compileSelection_applies (htype : parent.ty.underlying = .object type)
    (hfield : scope.schema.field? type name = some field)
    (hvalues : argumentMembers scope.vars arguments = .ok values) {path : List String}
    {alias? : Option String} {position : Position} :
    scope.compileSelection .parameter claims path parent
        (.field name alias? arguments [] position) session = .ok node final ↔
      ((∀ requirement ∈ field.requirement?, requirement.Holds claims) ∧
        ∀ requirement ∈ scope.schema.typeRequirement? node.ty, requirement.Holds claims) ∧
      (scope.fieldNode parent name field (field.ownValues values) >>=
        scope.applySequence .parameter (field.sequenceValues values) parent
          SequenceArguments.names) session = .ok node final := by
  have hobject : scope.compileObjectField .parameter claims parent type name arguments session =
      .ok node final ↔ (∀ requirement ∈ field.requirement?, requirement.Holds claims) ∧
        (scope.fieldNode parent name field (field.ownValues values) >>=
          scope.applySequence .parameter (field.sequenceValues values) parent
            SequenceArguments.names) session = .ok node final := by
    unfold compileObjectField
    rw [hfield]
    dsimp only
    rw [check_eq_ok, hvalues]
    unfold fieldNode
    rw [bind_assoc, ← Schema.authorize_eq_ok]
    exact ⟨fun ⟨_, hcheck, hrun⟩ => ⟨hcheck, hrun⟩, fun ⟨hcheck, hrun⟩ => ⟨(), hcheck, hrun⟩⟩
  have hbare : scope.compileBareField .parameter claims parent name arguments session =
      .ok node final ↔ scope.compileObjectField .parameter claims parent type name arguments
        session = .ok node final ∧
          ∀ requirement ∈ scope.schema.typeRequirement? node.ty, requirement.Holds claims := by
    unfold compileBareField
    rw [htype]
    exact checkTy_eq_ok
  rw [compileSelection_bareField, hbare, hobject]
  exact and_right_comm

/-- A field of a document without selections compiles only if the value of each sequence argument
that counts is the text of an expression or a count: the last value under its name, and none if this
is `null`. Then it is the node of the field without these arguments, on which the methods that they
stand for are called in their order, if the caller meets the requirements of the field and of the
type of the result. If there are no other arguments, this is what the calls on the name of the field
compile to as an expression. -/
theorem compileSelection_sequences (htype : parent.ty.underlying = .object type)
    (hfield : scope.schema.field? type name = some field)
    (hvalues : argumentMembers scope.vars arguments = .ok values) (claims : Claims)
    (path : List String) (alias? : Option String) (position : Position) (session : Session) :
    (∀ node final,
      scope.compileSelection .parameter claims path parent
          (.field name alias? arguments [] position) session = .ok node final →
        ∃ sequencing : Sequencing, sequencing.Reads (field.sequenceValues values)) ∧
    ∀ sequencing : Sequencing, sequencing.Reads (field.sequenceValues values) →
      (∀ node final,
        scope.compileSelection .parameter claims path parent
            (.field name alias? arguments [] position) session = .ok node final ↔
          ((∀ requirement ∈ field.requirement?, requirement.Holds claims) ∧
            ∀ requirement ∈ scope.schema.typeRequirement? node.ty, requirement.Holds claims) ∧
          (scope.fieldNode parent name field (field.ownValues values) >>=
            scope.callAll parent sequencing.calls) session = .ok node final) ∧
      (field.ownValues values = [] →
        scope.fieldNode parent name field (field.ownValues values) >>=
            scope.callAll parent sequencing.calls =
          scope.compile parent ((Expr.identifier name).called sequencing.calls)) := by
  constructor
  · intro node final h
    obtain ⟨-, h⟩ := (compileSelection_applies htype hfield hvalues).mp h
    obtain ⟨source, between, -, h⟩ := bind_eq_ok.mp h
    exact exists_reads_of_applySequence h
  · intro sequencing hreads
    have happly : scope.applySequence .parameter (field.sequenceValues values) parent
        SequenceArguments.names = scope.callAll parent sequencing.calls :=
      funext fun _ => applySequence_of_reads hreads
    refine ⟨fun node final => ?_, fun hown => ?_⟩
    · rw [compileSelection_applies htype hfield hvalues, happly]
    · rw [compile_called, compile_identifier htype hfield, hown]

end Scope

/-- A list of people that documents may filter, sort and page. -/
def crowdField : FieldDefinition :=
  { FieldDefinition.ofMember "people" (.list (.object "Person")) with sequenceArguments := .all }

/-- A host with this list. -/
def crowdHost : Host where
  schema := .ofParts "Query" [] [
    .ofFields "Query" none [crowdField],
    .ofFields "Person" none [.ofMember "name" .string, .ofMember "age" (.int .i32)]] []
  methods := .standard
  depth := 1

/-- Its scope with a name as a variable. -/
def crowdScope : Scope :=
  crowdHost.scope [("who", .text "Bob")]

/-- Arguments out of order, of which one is `null` and one is given twice. -/
def crowdArguments : List (String × Argument) :=
  [("take", .literal (.integer 1)), ("filter", .literal (.text "age > 50")),
    ("skip", .literal .null), ("orderBy", .enum "age"),
    ("filter", .literal (.text "name = $who"))]

/-- Their values. -/
def crowdValues : Entries Value :=
  [("take", .int 1), ("filter", .text "age > 50"), ("skip", .null), ("orderBy", .text "age"),
    ("filter", .text "name = $who")]

/-- What they ask for. -/
def crowdSequencing : Sequencing where
  filter? := some (.binary .equal (.identifier "name") (.var "who"))
  orderBy? := some (.identifier "age")
  orderByDesc? := none
  skip? := none
  take? := some 1

/-- The expression is a name. -/
def Expr.isName (name : String) : Expr → Bool
  | .identifier other => other = name
  | _ => false

/-- The expression compares a name with a variable. -/
def Expr.equates (name known : String) : Expr → Bool
  | .binary .equal (.identifier other) (.var found) => other = name && found = known
  | _ => false

/-- A text is read as an expression if it is read as one that passes a test for it. -/
theorem Expr.read_eq_of_test {source : String} {expr : Expr} {test : Expr → Bool}
    (htest : ∀ found, test found = true → found = expr)
    (h : (Expr.read source).toOption.any test = true) : Expr.read source = .ok expr := by
  cases hread : Expr.read source with
  | error fault =>
    rw [hread] at h
    cases h
  | ok found =>
    rw [hread] at h
    rw [htest found h]

/-- The filter compares the name with the variable. -/
theorem read_crowdFilter :
    Expr.read "name = $who" = .ok (.binary .equal (.identifier "name") (.var "who")) := by
  have h : (Expr.read "name = $who").toOption.any (Expr.equates "name" "who") = true := by
    decide +kernel
  refine Expr.read_eq_of_test (fun found h => ?_) h
  unfold Expr.equates at h
  split at h
  · obtain ⟨rfl, rfl⟩ := by simpa using h
    rfl
  · cases h

/-- The key of the order is the age. -/
theorem read_crowdKey : Expr.read "age" = .ok (.identifier "age") := by
  have h : (Expr.read "age").toOption.any (Expr.isName "age") = true := by decide +kernel
  refine Expr.read_eq_of_test (fun found h => ?_) h
  unfold Expr.isName at h
  split at h
  · rw [of_decide_eq_true h]
  · cases h

/-- The arguments ask for the filter, the order and the counts. -/
theorem crowdSequencing_reads : crowdSequencing.Reads (crowdField.sequenceValues crowdValues) where
  filter := .some ⟨_, rfl, read_crowdFilter⟩
  orderBy := .some ⟨_, rfl, read_crowdKey⟩
  orderByDesc := .none
  skip := .none
  take := .some rfl

/-- The people named `$who`, sorted by age, up to the first of them. -/
theorem Scope.compileSelection_sequences_crowd :
    (Scope.context (.object "Query")).ty.underlying = .object "Query" ∧
      crowdScope.schema.field? "Query" "people" = some crowdField ∧
      argumentMembers crowdScope.vars crowdArguments = .ok crowdValues ∧
      crowdSequencing.Reads (crowdField.sequenceValues crowdValues) ∧
      crowdField.ownValues crowdValues = [] ∧
      ∃ node final,
        (crowdScope.compile (Scope.context (.object "Query"))
            (.call (.call (.call (.identifier "people")
              "where" [.binary .equal (.identifier "name") (.var "who")])
              "orderBy" [.identifier "age"]) "take" [.literal (.integer 1)])) ⟨0, .empty⟩ =
          .ok node final ∧
        crowdScope.compileSelection .parameter .none [] (Scope.context (.object "Query"))
            (.field "people" none crowdArguments [] .start) ⟨0, .empty⟩ = .ok node final := by
  have htype : (Scope.context (.object "Query")).ty.underlying = .object "Query" := rfl
  have hfield : crowdScope.schema.field? "Query" "people" = some crowdField := rfl
  have hvalues : argumentMembers crowdScope.vars crowdArguments = .ok crowdValues := rfl
  obtain ⟨hcompiles, hcalled⟩ :=
    (compileSelection_sequences htype hfield hvalues .none [] none .start ⟨0, .empty⟩).2
      crowdSequencing crowdSequencing_reads
  refine ⟨htype, hfield, hvalues, crowdSequencing_reads, rfl, _, _, rfl, (hcompiles _ _).mpr ?_⟩
  refine ⟨⟨nofun, nofun⟩, ?_⟩
  rw [hcalled rfl]
  rfl

end TypedQuery
