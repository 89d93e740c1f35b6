import TypedQuery.Proofs.Compile.Deepening
import TypedQuery.Proofs.Compile.Typing
import TypedQuery.Query

/-!
# Fields that are entered again

The sources of a field name other fields, and these name others in turn. A compilation in which no
field is entered again while it is being compiled ends, however the sources refer to each other: it
goes no deeper than there are fields with sources. Fields that lead in a circle to each other are
compiled without end.
-/

namespace TypedQuery

open Halting

/-- The fields of a schema that have sources, with their object types. -/
def Schema.sourced (schema : Schema) : List (String × String) :=
  schema.types.flatMap fun type =>
    (type.2.fields.filter fun field => !field.2.sources.isEmpty).map fun field =>
      (type.1, field.2.name)

/-- How many fields with sources are not being compiled. -/
def Schema.unentered (schema : Schema) (active : List (String × String)) : Nat :=
  (schema.sourced.filter (· ∉ active)).length

/-- Entering a field with sources leaves fewer of them. -/
theorem Schema.unentered_cons_lt {schema : Schema} {active : List (String × String)}
    {entry : String × String} (hmem : entry ∈ schema.sourced) (hnew : entry ∉ active) :
    schema.unentered (entry :: active) < schema.unentered active :=
  length_filter_notMem_cons_lt id hmem hnew

/-- At the start no field with sources is entered. -/
theorem Schema.unentered_nil (schema : Schema) : schema.unentered [] = schema.sourced.length := by
  unfold unentered
  rw [List.filter_eq_self.mpr fun _ _ => decide_eq_true List.not_mem_nil]

/-- The object type of the values of a node. -/
def Node.objectType (node : Node) : String :=
  match node.ty.underlying with
  | .object type => type
  | _ => ""

/-- Compiles a field on a parent while others are being compiled, and stops where one of these is
entered again. There is no other bound. -/
def guardedField (capture : Capture) (schema : Schema) (methods : MethodLibrary)
    (active : List (String × String)) (vars : Entries Value) : FieldCompiler :=
  fun parent field arguments =>
    let entry := (parent.objectType, field.name)
    if _ : entry ∈ schema.sourced ∧ entry ∉ active then
      let inner : Scope := ⟨schema, methods, Entries.extend vars arguments, 0⟩
      Scope.compileResolver (inner.compileText capture
        (guardedField capture schema methods (entry :: active) inner.vars) parent) parent field
    else Scope.compileResolver (fun _ => Halting.tooDeep) parent field
termination_by schema.unentered active
decreasing_by exact Schema.unentered_cons_lt (‹_ ∧ _›).1 (‹_ ∧ _›).2

/-- A field of an object type shows objects of another type, and its arguments have defaults. -/
structure Schema.Shows (schema : Schema) (type name next : String) (field : FieldDefinition)
    (host : String) (bound : Entries Value) : Prop where
  found : schema.field? type name = some field
  binds : schema.bindArguments name field.arguments [] = .ok bound
  reads : field.resolver = .member host
  gives : field.ty.underlying = .object next

/-- An expression on objects of a type reads members one after another, the last of which holds
objects of a type. -/
inductive Schema.ReadsTo (schema : Schema) (type : String) : Expr → String → Prop
  | identifier {name next host : String} {field : FieldDefinition} {bound : Entries Value}
      (hshows : schema.Shows type name next field host bound) :
      ReadsTo schema type (.identifier name) next
  | access {object : Expr} {between name next host : String} {field : FieldDefinition}
      {bound : Entries Value} (hobject : ReadsTo schema type object between)
      (hshows : schema.Shows between name next field host bound) :
      ReadsTo schema type (.access object name) next

/-- Compiling an expression on objects of a type enters a field of a type, before anything can
fail. -/
inductive Schema.Enters (schema : Schema) (type : String) : Expr → String × String → Prop
  | identifier (name : String) : Enters schema type (.identifier name) (type, name)
  | access {object : Expr} {between : String} (name : String)
      (hobject : schema.ReadsTo type object between) :
      Enters schema type (.access object name) (between, name)
  | object {object : Expr} {name : String} {entry : String × String}
      (h : Enters schema type object entry) : Enters schema type (.access object name) entry
  | receiver {receiver : Expr} {method : String} {arguments : List Expr} {entry : String × String}
      (h : Enters schema type receiver entry) :
      Enters schema type (.call receiver method arguments) entry
  | left {op : Operator} {left right : Expr} {entry : String × String}
      (h : Enters schema type left entry) : Enters schema type (.binary op left right) entry
  | test {test yes no : Expr} {testText : String} {entry : String × String}
      (h : Enters schema type test entry) :
      Enters schema type (.conditional test testText yes no) entry

/-- The compilation of the first source of a field enters another field. -/
def Schema.LeadsTo (schema : Schema) (entry next : String × String) : Prop :=
  ∃ field bound source expr, schema.field? entry.1 entry.2 = some field ∧
    schema.bindArguments entry.2 field.arguments [] = .ok bound ∧
    field.sources.head? = some source ∧ Expr.read source = .ok expr ∧
    schema.Enters entry.1 expr next

/-- Fields each of which leads to another one of them. -/
def Schema.Circle (schema : Schema) (entries : List (String × String)) : Prop :=
  ∀ entry ∈ entries, ∃ next ∈ entries, schema.LeadsTo entry next

/-- A computation that never comes to anything because fields refer to each other too deeply. -/
def Halting.Endless {σ ε α : Type} (run : Halting σ ε α) : Prop :=
  ∀ state, ∃ final, run state = .error .depth final

/-- What goes on behind an endless computation is endless. -/
theorem Halting.Endless.bind {σ ε α β : Type} {run : Halting σ ε α} (h : run.Endless)
    (next : α → Halting σ ε β) : (run >>= next).Endless := by
  intro state
  obtain ⟨final, hrun⟩ := h state
  exact ⟨final, bind_of_error hrun⟩

namespace Scope

variable {capture : Capture} {schema : Schema} {methods : MethodLibrary}

/-- Compiling fields goes no deeper than there are fields that are not being compiled, until one is
entered again. -/
theorem guardedField_settles (hmethods : methods.Level) {active : List (String × String)}
    {depth : Nat} (hdepth : schema.unentered active ≤ depth) (vars : Entries Value) :
    (guardedField capture schema methods active vars).Settles
      (compileField capture schema methods depth vars) := by
  induction depth generalizing active vars with
  | zero =>
    intro parent field bound
    unfold guardedField
    dsimp only
    split
    · rename_i hentry
      have := Schema.unentered_cons_lt hentry.1 hentry.2
      omega
    · exact .refl _
  | succ depth ih =>
    intro parent field bound
    unfold guardedField
    dsimp only
    split
    · rename_i hentry
      have hless := Schema.unentered_cons_lt hentry.1 hentry.2
      let inner : Scope := ⟨schema, methods, Entries.extend vars bound, 0⟩
      exact compileResolver_settles (@compileText_settles inner capture _ _ hmethods
        (ih (by omega) inner.vars) depth parent) parent field
    · exact compileResolver_settles (fun _ => .tooDeep _) parent field

variable {scope : Scope} {fields : FieldCompiler} {context : Node} {name : String}

/-- A field of an object with the defaults of its arguments. -/
theorem resolve_of_field? {type : String} {field : FieldDefinition} {bound : Entries Value}
    (hcontext : context.ty.underlying = .object type)
    (hfield : scope.schema.field? type name = some field)
    (hbound : scope.schema.bindArguments name field.arguments [] = .ok bound) :
    scope.resolve fields context name = fields context field bound := by
  unfold resolve
  rw [hcontext]
  dsimp only
  rw [hfield]
  dsimp only
  rw [hbound]
  rfl

/-- Members that are read one after another give objects, at every depth. -/
theorem compileExpr_readsTo {type next : String} {expr : Expr} (depth : Nat) (vars : Entries Value)
    (h : scope.schema.ReadsTo type expr next) (hcontext : context.ty.underlying = .object type) :
    ∃ node : Node, node.ty.underlying = .object next ∧
      scope.compileExpr capture (compileField capture schema methods depth vars) context expr =
        return node := by
  induction h with
  | @identifier name next host field bound hshows =>
    unfold compileExpr
    rw [resolve_of_field? hcontext hshows.found hshows.binds,
      compileField_member hshows.reads]
    exact ⟨context.map fun plan => plan.member host field.ty, hshows.gives, rfl⟩
  | @access object between name next host field bound hobject hshows ih =>
    obtain ⟨parent, hparent, hcompiled⟩ := ih
    unfold compileExpr
    rw [hcompiled, pure_bind, resolve_of_field? hparent hshows.found hshows.binds,
      compileField_member hshows.reads]
    exact ⟨parent.map fun plan => plan.member host field.ty, hshows.gives, rfl⟩

/-- An expression comes to nothing if a field does not that it enters. -/
theorem compileExpr_endless {type : String} {expr : Expr} {entry : String × String} {depth : Nat}
    {vars : Entries Value} (h : scope.schema.Enters type expr entry)
    (hcontext : context.ty.underlying = .object type)
    (hentry : ∀ parent : Node, parent.ty.underlying = .object entry.1 →
      (scope.resolve (compileField capture schema methods depth vars) parent entry.2).Endless) :
    (scope.compileExpr capture (compileField capture schema methods depth vars) context
      expr).Endless := by
  induction h with
  | identifier name =>
    unfold compileExpr
    exact hentry context hcontext
  | access name hobject =>
    obtain ⟨parent, hparent, hcompiled⟩ := compileExpr_readsTo depth vars hobject hcontext
    unfold compileExpr
    rw [hcompiled, pure_bind]
    exact hentry parent hparent
  | object h ih | receiver h ih | left h ih | test h ih =>
    unfold compileExpr
    exact (ih hentry).bind _

/-- A source text comes to nothing if its expression does not. -/
theorem compileText_endless {source : String} {expr : Expr} (hread : Expr.read source = .ok expr)
    (h : (scope.compileExpr capture fields context expr).Endless) :
    (scope.compileText capture fields context source).Endless := by
  intro state
  obtain ⟨final, hrun⟩ := h state
  exact ⟨final, (check_of_ok hread).trans hrun⟩

/-- A field comes to nothing if its first source does not. -/
theorem compileResolver_endless {compile : String → Compile Node} {parent : Node}
    {field : FieldDefinition} {source : String} (hsource : field.sources.head? = some source)
    (h : (compile source).Endless) : (compileResolver compile parent field).Endless := by
  unfold FieldDefinition.sources at hsource
  unfold compileResolver
  cases hresolver : field.resolver with
  | member host =>
    rw [hresolver] at hsource
    cases hsource
  | computed text =>
    rw [hresolver] at hsource
    cases hsource
    exact h
  | service service inputs run =>
    rw [hresolver] at hsource
    cases inputs with
    | nil => cases hsource
    | cons first rest =>
      cases hsource
      have hinputs : (compileInputs compile parent (source :: rest)).Endless := h.bind _
      exact hinputs.bind _

/-- A field of a circle comes to nothing at any depth. -/
theorem resolve_endless {entries : List (String × String)} (hcircle : scope.schema.Circle entries)
    (depth : Nat) {entry : String × String} (hmem : entry ∈ entries) (vars : Entries Value)
    (hcontext : context.ty.underlying = .object entry.1) :
    (scope.resolve (compileField capture scope.schema methods depth vars) context
      entry.2).Endless := by
  induction depth generalizing scope entry vars context with
  | zero =>
    obtain ⟨next, hnext, field, bound, source, expr, hfield, hbound, hsource, hread, henters⟩ :=
      hcircle entry hmem
    rw [resolve_of_field? hcontext hfield hbound]
    exact compileResolver_endless hsource fun state => ⟨state, rfl⟩
  | succ depth ih =>
    obtain ⟨next, hnext, field, bound, source, expr, hfield, hbound, hsource, hread, henters⟩ :=
      hcircle entry hmem
    rw [resolve_of_field? hcontext hfield hbound]
    let inner : Scope := ⟨scope.schema, methods, Entries.extend vars bound, depth⟩
    have hinner : inner.schema.Circle entries := hcircle
    exact compileResolver_endless hsource (compileText_endless hread
      (compileExpr_endless henters hcontext fun parent hparent =>
        ih hinner hnext inner.vars hparent))

end Scope

namespace Query

/-- Compiles a source text, and stops where a field is entered again while it is being compiled. -/
def compileGuarded (scope : Scope) (contextTy : Ty) (source : String)
    (capture : Capture := .parameter) : Compile Query := do
  let fields := guardedField capture scope.schema scope.methods [] scope.vars
  let node ← scope.compileText capture fields (Scope.context contextTy) source
  return ofNode node contextTy

/-- Compiling a source text with standard methods ends if no field is entered again while it is
being compiled: at every depth from the number of fields with sources on, it comes to the query or
the failure to which it comes without a bound. What it comes to at some depth, it comes to at every
larger depth. If it enters a field of a circle of fields that lead to each other, it comes to
nothing at any depth. -/
theorem compile_ends (scope : Scope) (contextTy : Ty) (source : String) (capture : Capture)
    (hmethods : scope.methods.IsStandard) :
    (∀ session, (∀ final, compileGuarded scope contextTy source capture session ≠
        .error .depth final) →
      ∀ depth, scope.schema.sourced.length ≤ depth →
        compile (scope.atDepth depth) contextTy source capture session =
          compileGuarded scope contextTy source capture session) ∧
    (∀ session depth more, depth ≤ more →
      (∀ final, compile (scope.atDepth depth) contextTy source capture session ≠
        .error .depth final) →
      compile (scope.atDepth more) contextTy source capture session =
        compile (scope.atDepth depth) contextTy source capture session) ∧
    ∀ type expr entry entries, contextTy.underlying = .object type →
      Expr.read source = .ok expr → scope.schema.Enters type expr entry → entry ∈ entries →
      scope.schema.Circle entries → ∀ depth session, ∃ final,
        compile (scope.atDepth depth) contextTy source capture session = .error .depth final := by
  have hlevel := hmethods.level
  refine ⟨fun session hended depth hdepth => ?_, fun session depth more hle hended => ?_, ?_⟩
  · have henough : scope.schema.unentered [] ≤ depth := by
      rw [Schema.unentered_nil]
      exact hdepth
    have hguarded : Halting.Settles (compileGuarded scope contextTy source capture)
        (compile (scope.atDepth depth) contextTy source capture) :=
      .bind (Scope.compileText_settles hlevel
        (Scope.guardedField_settles hlevel henough scope.vars) depth _ source) fun node => .refl _
    exact hguarded.eq_of_ended hended
  · have hdeeper : Halting.Settles (compile (scope.atDepth depth) contextTy source capture)
        (compile (scope.atDepth more) contextTy source capture) :=
      .bind (@Scope.compileText_settles (scope.atDepth depth) capture _ _ hlevel
        (Scope.compileField_settles hlevel hle scope.vars) more _ source) fun node => .refl _
    exact hdeeper.eq_of_ended hended
  · intro type expr entry entries hcontext hread henters hmem hcircle depth session
    have hobject : (Scope.context contextTy).ty.underlying = .object type := hcontext
    have hendless : ((scope.atDepth depth).compileText capture
        ((scope.atDepth depth).fieldCompiler capture) (Scope.context contextTy) source).Endless :=
      Scope.compileText_endless hread (Scope.compileExpr_endless henters hobject
        fun parent hparent => Scope.resolve_endless hcircle depth hmem scope.vars hparent)
    exact hendless.bind _ session

end Query

/-- An expression that starts with a field of what a member holds. -/
def Expr.startsAt (member name : String) : Expr → Bool
  | .access (.identifier object) field => object = member && field = name
  | .binary _ left _ => left.startsAt member name
  | _ => false

/-- A source text is such an expression. -/
def readsAt (member name source : String) : Bool :=
  match Expr.read source with
  | .ok expr => expr.startsAt member name
  | .error _ => false

/-- A source that starts with a field of what a member holds enters this field. -/
theorem Schema.enters_of_readsAt {schema : Schema} {type member name next host source : String}
    {field : FieldDefinition} {bound : Entries Value}
    (hshows : schema.Shows type member next field host bound)
    (h : readsAt member name source = true) :
    ∃ expr, Expr.read source = .ok expr ∧ schema.Enters type expr (next, name) := by
  have hstarts : ∀ expr : Expr, expr.startsAt member name = true →
      schema.Enters type expr (next, name) := by
    intro expr
    induction expr using Expr.startsAt.induct with
    | case1 object field =>
      intro h
      unfold Expr.startsAt at h
      obtain ⟨rfl, rfl⟩ : object = member ∧ field = name := by simpa using h
      exact .access _ (.identifier hshows)
    | case2 op left right ih =>
      intro h
      unfold Expr.startsAt at h
      exact .left (ih h)
    | case3 expr hnot hnot' =>
      intro h
      rw [Expr.startsAt.eq_3 member name expr hnot hnot'] at h
      cases h
  unfold readsAt at h
  split at h
  · exact ⟨_, ‹_›, hstarts _ h⟩
  · cases h

/-- A field of integers that is computed from a source. -/
def FieldDefinition.ofSource (name source : String) : FieldDefinition where
  name := name
  ty := .int .i32
  resolver := .computed source
  arguments := []
  requirement? := none
  sequenceArguments := .none

/-- The rank of a person is one more than that of the boss of the person. -/
def rankScope : Scope where
  schema := .ofParts "Query" [] [
    .ofFields "Query" none [.ofMember "chief" (.object "Person"), .ofSource "twice" "once + once",
      .ofSource "once" "1"],
    .ofFields "Person" none [.ofMember "boss" (.object "Person"), .ofSource "rank" "boss.rank + 1"]]
    []
  methods := .standard
  vars := []
  depth := 0

/-- The rank of a person leads to itself. -/
theorem rankScope_circle : rankScope.schema.Circle [("Person", "rank")] := by
  have hshows : rankScope.schema.Shows "Person" "boss" "Person"
      (.ofMember "boss" (.object "Person")) "boss" [] := ⟨rfl, rfl, rfl, rfl⟩
  obtain ⟨expr, hread, henters⟩ := Schema.enters_of_readsAt hshows
    (show readsAt "boss" "rank" "boss.rank + 1" = true by decide +kernel)
  intro entry hentry
  cases List.mem_singleton.mp hentry
  exact ⟨_, List.mem_singleton_self _, .ofSource "rank" "boss.rank + 1", [], _, expr, rfl, rfl, rfl,
    hread, henters⟩

/-- What does not lead to itself is compiled, and the rank of the chief is not. -/
theorem Query.compile_ends_ranks :
    rankScope.methods.IsStandard ∧
      (∀ final, compileGuarded rankScope (.object "Query") "twice" .parameter default ≠
        .error .depth final) ∧
      (∀ depth, 3 ≤ depth →
        compile (rankScope.atDepth depth) (.object "Query") "twice" .parameter default =
          compileGuarded rankScope (.object "Query") "twice" .parameter default) ∧
      ∀ depth session, ∃ final,
        compile (rankScope.atDepth depth) (.object "Query") "chief.rank" .parameter session =
          .error .depth final := by
  have hshows : rankScope.schema.Shows "Query" "chief" "Person"
      (.ofMember "chief" (.object "Person")) "chief" [] := ⟨rfl, rfl, rfl, rfl⟩
  obtain ⟨expr, hread, henters⟩ := Schema.enters_of_readsAt hshows
    (show readsAt "chief" "rank" "chief.rank" = true by decide +kernel)
  obtain ⟨query, session, hquery, -⟩ := exists_of_yields
    (show (compileGuarded rankScope (.object "Query") "twice").yields default (fun _ => true) = true
      by decide +kernel)
  have hended : ∀ final, compileGuarded rankScope (.object "Query") "twice" .parameter default ≠
      .error .depth final := by
    intro final hdeep
    rw [hquery] at hdeep
    cases hdeep
  have hlength : rankScope.schema.sourced.length = 3 := by decide +kernel
  have hstandard : rankScope.methods.IsStandard := MethodLibrary.isStandard_standard
  refine ⟨hstandard, hended, fun depth hdepth => ?_, ?_⟩
  · exact (compile_ends rankScope _ "twice" .parameter hstandard).1 default hended depth
      (hlength ▸ hdepth)
  · exact (compile_ends rankScope _ "chief.rank" .parameter hstandard).2.2 _ expr _ _ rfl hread
      henters (List.mem_singleton_self _) rankScope_circle

end TypedQuery
