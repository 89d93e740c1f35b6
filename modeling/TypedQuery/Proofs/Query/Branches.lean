import TypedQuery.Proofs.Plan.Unifying
import TypedQuery.Proofs.Query.Joining

/-!
# Conditionals give their branches

A conditional gives what its first branch gives as a query of its own where its test is true, and
what its second one gives where the test has another value. The conversions that bring the branches
to one type change nothing about that. All services that the test or a branch needs have to be
there, also those of the branch that is not chosen, and they have to give values of the types of
their fields.
-/

namespace TypedQuery

open Halting

/-- A conditional fails as its test does, gives what its first branch gives where the test is true,
and what its second one gives where the test has another value. -/
structure ReturnsBranch (test yes no whole : Except RunFault Value) : Prop where
  fails : ∀ fault, test = .error fault → whole = .error fault
  first : test = .ok (.boolean true) → Agrees whole yes
  second : ∀ value, test = .ok value → value ≠ .boolean true → Agrees whole no

/-- The conditional of parts that return the same branch. -/
theorem Plan.returnsBranch_cond {members : Members} {test condition yes no first second : Plan}
    {ty : Ty} {services : Services} {environment : Environment}
    (hcondition : test.asPredicate? = some condition)
    (htest : Returns (test.eval services environment) fun value => value.Conforms members test.ty)
    (hfirst : Agrees (first.eval services environment) (yes.eval services environment))
    (hsecond : Agrees (second.eval services environment) (no.eval services environment)) :
    ReturnsBranch (test.eval services environment) (yes.eval services environment)
      (no.eval services environment)
      ((cond ty condition first second).eval services environment) := by
  have hchosen : ∀ {value : Value}, test.eval services environment = .ok value →
      ∃ chosen : Bool, (chosen = true ↔ value = .boolean true) ∧
        (cond ty condition first second).eval services environment =
          if chosen then first.eval services environment
          else second.eval services environment := by
    intro value hvalue
    obtain ⟨truth, chosen, htruth, hchooses, hiff⟩ :=
      exists_chooses_of_asPredicate? hcondition hvalue (htest value hvalue)
    refine ⟨chosen, hiff, ?_⟩
    rw [eval, htruth]
    change (chooses truth >>= _) = _
    rw [hchooses]
    rfl
  constructor
  · intro fault hfault
    rw [eval, eval_asPredicate?_error hcondition hfault]
    rfl
  · intro htrue
    obtain ⟨chosen, hiff, hcond⟩ := hchosen htrue
    rw [hcond, if_pos (hiff.mpr rfl)]
    exact hfirst
  · intro value hvalue hother
    obtain ⟨chosen, hiff, hcond⟩ := hchosen hvalue
    rw [hcond, if_neg fun h => hother (hiff.mp h)]
    exact hsecond

namespace Query

variable {schema : Schema} {vars : Entries Value} {node part : Node} {contextTy : Ty} {Γ : Typing}
  {services : Services}

/-- Where no field takes arguments, a query keeps its variables at their values. -/
theorem find?_kept {x : String} (h : node.Sound (.ofSchema schema vars) Γ)
    (hx : x ∈ Entries.names node.constants) (contextTy : Ty) :
    Entries.find? (ofNode node contextTy).kept (constantName x) = Entries.find? vars x := by
  obtain ⟨value, hvalue⟩ := exists_find?_kept hx contextTy
  have hmem := Entries.mem_of_find? hvalue
  rw [kept_ofNode] at hmem
  obtain ⟨entry, hentry, heq⟩ := List.mem_map.mp (List.mem_reverse.mp hmem)
  obtain ⟨hname, rfl⟩ := Prod.mk.inj heq
  rw [hvalue, ← constantName_injective hname]
  exact (h.known entry hentry).symm

/-- So a part of a query gives what it gives as a query of its own. -/
theorem eval_part (hpart : part.Sound (.ofSchema schema vars) (.only contextName contextTy))
    (hnode : node.Sound (.ofSchema schema vars) Γ) (hextends : node.Extends part)
    (hservices : ∀ service ∈ node.services, Entries.contains services service = true)
    (context : Value) :
    part.plan.eval services (environmentOf node context) =
      (ofNode part contextTy).run services context := by
  have hshared : (ofNode part contextTy).SharedBy (ofNode node contextTy) := by
    intro name hname
    rw [constants_ofNode] at hname
    obtain ⟨entry, hentry, rfl⟩ := List.mem_map.mp hname
    have hx : entry.1 ∈ Entries.names part.constants := List.mem_map_of_mem hentry
    rw [find?_kept hnode (hextends.constants _ hx), find?_kept hpart hx]
  rw [run_ofNode fun service h => hservices service (hextends.services service h)]
  exact eval_of_sharedBy hpart hshared

/-- Without powers, a part of a query gives values of its type. -/
theorem part_conforms {context : Value}
    (hpart : part.Sound (.ofSchema schema vars) (.only contextName contextTy))
    (hnode : node.Sound (.ofSchema schema vars) (.only contextName contextTy))
    (hextends : node.Extends part) (hpower : Operator.power ∉ part.plan.operators)
    (hcontext : context.Belongs schema.members contextTy)
    (hvars : ∀ name value, Entries.find? vars name = some value →
      value.Belongs schema.members value.staticType) :
    Returns (part.plan.eval services (environmentOf node context)) fun value =>
      value.Conforms schema.members part.plan.ty :=
  ((hpart.typed.extend hextends).returns_eval (fun _ _ h => h) hpower
    (environmentOf_meets hnode hcontext hvars)).mono fun _ hvalue => hvalue.1

end Query

namespace Scope

variable {scope : Scope} {session final : Session} {test yes no : Expr} {text : String}
  {context node : Node}

/-- The parts of a conditional are compiled one after another, and the branches are brought to one
type. -/
theorem compile_conditional
    (h : (scope.compile context (.conditional test text yes no)) session = .ok node final) :
    ∃ t afterTest condition y afterYes n first second ty,
      (scope.compile context test) session = .ok t afterTest ∧
      t.plan.asPredicate? = some condition ∧
      (scope.compile context yes) afterTest = .ok y afterYes ∧
      (scope.compile context no) afterYes = .ok n final ∧
      y.plan.unifyBranches n.plan = (first, second, ty) ∧
      node = (t.join y condition).join n (.cond ty condition first second) := by
  unfold compile compileExpr at h
  obtain ⟨t, afterTest, htest, h⟩ := bind_eq_ok.mp h
  cases hcondition : t.plan.asPredicate? with
  | none =>
    rw [hcondition] at h
    cases h
  | some condition =>
    rw [hcondition] at h
    obtain ⟨y, afterYes, hyes, h⟩ := bind_eq_ok.mp h
    obtain ⟨n, afterNo, hno, h⟩ := bind_eq_ok.mp h
    obtain ⟨rfl, rfl⟩ := pure_eq_ok.mp h
    exact ⟨t, afterTest, condition, y, afterYes, n, _, _, _, htest, hcondition, hyes, hno, rfl, rfl⟩

end Scope

namespace Host

variable {host : Host} {contextTy : Ty} {vars : Entries Value} {session final : Session}
  {test yes no : Expr} {text : String} {node part : Node} {services : Services} {context : Value}

/-- What an expression compiles to is sound for what is known of a host whose fields take no
arguments. -/
theorem sound_of_compile {expr : Expr} (hmethods : host.methods = .standard)
    (hplain : host.schema.WithoutArguments) (hhonest : host.schema.HonestServices)
    (h : ((host.scope vars).compile (Scope.context contextTy) expr) session = .ok part final) :
    part.Sound (.ofSchema host.schema vars) (.only contextName contextTy) := by
  have hhost : host.Sound (.ofSchema host.schema vars) vars :=
    Host.sound_ofSchema vars (hmethods ▸ MethodLibrary.sound_standard _) hplain hhonest
  exact (Scope.compileExpr_ensures hhost.scope (Scope.sound_fieldCompiler hhost.scope)
    (Scope.good_context contextTy) expr (fun _ _ => trivial) _ _ _ h).toSound

/-- A conditional without powers and without branches of floats gives what the branch gives that its
test chooses, a value that means the same, and it fails as the test or that branch does. The test
and the branches compile as queries of their own. The fields of the schema take no arguments, the
context and the variables belong to their types, services give values of the types of their fields,
and all those that the conditional lists are there. -/
theorem returnsBranch_of_compiles (hmethods : host.methods = .standard)
    (hplain : host.schema.WithoutArguments) (hhonest : host.schema.HonestServices)
    (h : ((host.scope vars).compile (Scope.context contextTy) (.conditional test text yes no))
      session = .ok node final)
    (hpower : Operator.power ∉ node.plan.operators) (other : Session) :
    ∃ t y n afterTest afterYes afterNo,
      ((host.scope vars).compile (Scope.context contextTy) test) other = .ok t afterTest ∧
      ((host.scope vars).compile (Scope.context contextTy) yes) other = .ok y afterYes ∧
      ((host.scope vars).compile (Scope.context contextTy) no) other = .ok n afterNo ∧
      (y.ty.underlying ≠ .float → n.ty.underlying ≠ .float → ∀ services context,
        context.Belongs host.schema.members contextTy →
        (∀ name value, Entries.find? vars name = some value →
          value.Belongs host.schema.members value.staticType) →
        (∀ service ∈ node.services, Entries.contains services service = true) →
        ReturnsBranch ((Query.ofNode t contextTy).run services context)
          ((Query.ofNode y contextTy).run services context)
          ((Query.ofNode n contextTy).run services context)
          ((Query.ofNode node contextTy).run services context)) := by
  have hsteady : (host.scope vars).methods.Steady :=
    show host.methods.Steady from hmethods ▸ MethodLibrary.steady_standard
  have hnode := sound_of_compile hmethods hplain hhonest h
  obtain ⟨t, _, condition, y, _, n, first, second, ty, htest, hcondition, hyes, hno, hunify, rfl⟩ :=
    Scope.compile_conditional h
  have ht := sound_of_compile hmethods hplain hhonest htest
  have hy := sound_of_compile hmethods hplain hhonest hyes
  have hn := sound_of_compile hmethods hplain hhonest hno
  obtain ⟨t', afterTest, htest', -, -, -, hrunTest⟩ :=
    Scope.compile_in_session hsteady htest other
  obtain ⟨y', afterYes, hyes', htyYes, -, -, hrunYes⟩ :=
    Scope.compile_in_session hsteady hyes other
  obtain ⟨n', afterNo, hno', htyNo, -, -, hrunNo⟩ := Scope.compile_in_session hsteady hno other
  refine ⟨t', y', n', afterTest, afterYes, afterNo, htest', hyes', hno', ?_⟩
  intro hfloatYes hfloatNo services context hcontext hvars hservices
  rw [htyYes] at hfloatYes
  rw [htyNo] at hfloatNo
  -- Every part of the conditional gives in it what it gives alone.
  have hextendsTest := (Node.join_extends_left (t.join y condition) n
    (.cond ty condition first second)).trans (Node.join_extends_left t y condition)
  have hextendsYes := (Node.join_extends_left (t.join y condition) n
    (.cond ty condition first second)).trans (Node.join_extends_right t y condition)
  have hextendsNo := Node.join_extends_right (t.join y condition) n
    (.cond ty condition first second)
  rw [Query.run_ofNode hservices, hrunTest, hrunYes, hrunNo,
    ← Query.eval_part ht hnode hextendsTest hservices,
    ← Query.eval_part hy hnode hextendsYes hservices,
    ← Query.eval_part hn hnode hextendsNo hservices]
  have hadapt := Plan.Adapt.unifyBranches hunify
  obtain ⟨hfirst, hsecond⟩ : Plan.Reproduces host.schema.members y.plan first ∧ _ :=
    Plan.reproduces_unifyBranches hfloatYes hfloatNo hunify
  have hpowerTest : Operator.power ∉ t.plan.operators := fun hop =>
    hpower (List.mem_append_left _ (Plan.mem_operators_of_asPredicate? hcondition hop))
  have hpowerYes : Operator.power ∉ y.plan.operators := fun hop =>
    hpower (List.mem_append_right _ (List.mem_append_left _ (hadapt.left.mem_operators hop)))
  have hpowerNo : Operator.power ∉ n.plan.operators := fun hop =>
    hpower (List.mem_append_right _ (List.mem_append_right _ (hadapt.right.mem_operators hop)))
  exact Plan.returnsBranch_cond hcondition
    (Query.part_conforms ht hnode hextendsTest hpowerTest hcontext hvars)
    (hfirst.agrees hadapt.left
      (Query.part_conforms hy hnode hextendsYes hpowerYes hcontext hvars))
    (hsecond.agrees hadapt.right
      (Query.part_conforms hn hnode hextendsNo hpowerNo hcontext hvars))

end Host

/-- A host with a list of names and with a toll that a service gives. -/
def tollHost (toll : Value) : Host where
  schema := .ofParts "Query" [] [
    .ofFields "Query" none [
      .ofMember "names" (.list .string),
      .ofMember "open" .boolean,
      { name := "toll"
        ty := .int .i32
        resolver := .service "Booth" [] fun _ _ => .ok toll
        arguments := []
        requirement? := none
        sequenceArguments := .none }]] []
  methods := .standard
  depth := 1

/-- A context of the host. -/
def tollContext (names : List Value) : Value :=
  .object "Query" [("names", .list names), ("open", .boolean true)]

/-- An expression has an outcome with the services and in the context. -/
def TollEnds (toll : Value) (services : Services) (names : List Value) (expr : Expr)
    (outcome : Except RunFault Value) : Prop :=
  ∃ node final, (((tollHost toll).scope []).compile (Scope.context (.object "Query")) expr)
      default = .ok node final ∧
    (Query.ofNode node (.object "Query")).run services (tollContext names) = outcome

/-- The conditional on whether the host is open. -/
def ifOpen (yes no : Expr) : Expr :=
  .conditional (.identifier "open") "open" yes no

namespace Host

/-- The fields of the host. -/
theorem tollHost_fields {toll : Value} {type name : String} {field : FieldDefinition}
    (h : (tollHost toll).schema.field? type name = some field) :
    field = .ofMember "names" (.list .string) ∨ field = .ofMember "open" .boolean ∨
      field.resolver = .service "Booth" [] (fun _ _ => .ok toll) ∧ field.ty = .int .i32 ∧
        field.arguments = [] := by
  refine Schema.of_forall_fields (P := fun _ _ field => field = .ofMember "names" (.list .string) ∨
    field = .ofMember "open" .boolean ∨
      field.resolver = .service "Booth" [] (fun _ _ => .ok toll) ∧ field.ty = .int .i32 ∧
        field.arguments = []) (fun object hobject field hfield => ?_) h
  cases List.mem_singleton.mp hobject
  rcases List.mem_cons.mp hfield with rfl | hfield
  · exact .inl rfl
  · rcases List.mem_cons.mp hfield with rfl | hfield
    · exact .inr (.inl rfl)
    · cases List.mem_singleton.mp hfield
      exact .inr (.inr ⟨rfl, rfl, rfl⟩)

/-- Where the host is open, the toll of three is the decimal of three opposite a decimal. -/
theorem returnsBranch_of_compiles_toll :
    let host := tollHost (.int 3)
    let half := Expr.literal (.decimal ⟨false, 5, 1, by decide, by decide⟩)
    ∃ node final whole, ((host.scope []).compile (Scope.context (.object "Query"))
        (ifOpen (.identifier "toll") half)) default = .ok node final ∧
      node.ty = .decimal ∧
      (Query.ofNode node (.object "Query")).run [("Booth", .null)] (tollContext []) = .ok whole ∧
      whole.Means (.int 3) := by
  intro host half
  have hnode : ((host.scope []).compile (Scope.context (.object "Query"))
      (ifOpen (.identifier "toll") half)) default = .ok _ _ := rfl
  have hplain : host.schema.WithoutArguments := by
    intro type name field h
    rcases tollHost_fields h with rfl | rfl | ⟨-, -, harguments⟩
    · rfl
    · rfl
    · exact harguments
  have hhonest : host.schema.HonestServices := by
    intro type name field service inputs run h hresolver value arguments
    rcases tollHost_fields h with rfl | rfl | ⟨hservice, hty, -⟩
    · cases hresolver
    · cases hresolver
    · cases hservice.symm.trans hresolver
      rw [hty]
      exact .ok ⟨.int rfl rfl, .scalar rfl⟩
  have hcontext : (tollContext []).Belongs host.schema.members (.object "Query") := by
    refine ⟨.object rfl ?_, .object ?_⟩
    · rintro member ty value ⟨name, field, h, hresolver, rfl⟩ hvalue
      rcases tollHost_fields h with rfl | rfl | ⟨hservice, -, -⟩
      · cases hresolver
        cases hvalue
        exact .list rfl fun _ h => absurd h List.not_mem_nil
      · cases hresolver
        cases hvalue
        exact .boolean rfl
      · cases hservice.symm.trans hresolver
    · intro entry hentry
      rcases List.mem_cons.mp hentry with rfl | hentry
      · exact .list (by decide) fun _ h => absurd h List.not_mem_nil
      · cases List.mem_singleton.mp hentry
        exact .scalar rfl
  obtain ⟨t, y, n, _, _, _, ht, hy, hn, hbranch⟩ :=
    returnsBranch_of_compiles rfl hplain hhonest hnode (by decide) default
  cases ht
  cases hy
  cases hn
  obtain ⟨-, hfirst, -⟩ := hbranch nofun nofun [("Booth", .null)] (tollContext []) hcontext nofun
    fun service h => by
      cases List.mem_singleton.mp h
      rfl
  cases hfirst rfl with
  | value hmeans => exact ⟨_, _, _, hnode, rfl, rfl, hmeans⟩

/-- A count gives the number of the items, and as a branch opposite `null` what that is converted
to. -/
theorem tollEnds_count (names : List Value) :
    TollEnds .null [] names (.identifier "open") (.ok (.boolean true)) ∧
      TollEnds .null [] names (.call (.identifier "names") "count" [])
        (.ok (.int (Int64.ofInt names.length))) ∧
      TollEnds .null [] names
        (ifOpen (.call (.identifier "names") "count" []) (.literal .null))
        ((Value.int (Int64.ofInt names.length)).convert (.nullable (.int .i32))) :=
  ⟨⟨_, _, rfl, rfl⟩, ⟨_, _, rfl, rfl⟩, ⟨_, _, rfl, rfl⟩⟩

/-- A conditional fails where its test is true and its first branch gives a value, if a service is
missing that the other branch needs, if a service gives a text for an integer, or if a list has more
items than its count can tell. -/
theorem returnsBranch_fails :
    let toll := Expr.identifier "toll"
    let one := Expr.literal (.integer 1)
    let count := Expr.call (.identifier "names") "count" []
    let crowd := List.replicate Value.countLimit Value.null
    (TollEnds (.int 5) [] [] (.identifier "open") (.ok (.boolean true)) ∧
      TollEnds (.int 5) [] [] one (.ok (.int 1)) ∧
      TollEnds (.int 5) [] [] (ifOpen one toll) (.error (.missingService "Booth"))) ∧
    (TollEnds (.text "free") [("Booth", .null)] [] (.identifier "open") (.ok (.boolean true)) ∧
      TollEnds (.text "free") [("Booth", .null)] [] toll (.ok (.text "free")) ∧
      TollEnds (.text "free") [("Booth", .null)] [] (ifOpen toll (.literal .null))
        (.error (.conversion (.text "free") (.int .i32)))) ∧
    TollEnds .null [] crowd (.identifier "open") (.ok (.boolean true)) ∧
      TollEnds .null [] crowd count (.ok (.int 2147483648)) ∧
      TollEnds .null [] crowd (ifOpen count (.literal .null))
        (.error (.overflow (.number 2147483648 .i32))) := by
  intro toll one count crowd
  refine ⟨⟨⟨_, _, rfl, rfl⟩, ⟨_, _, rfl, rfl⟩, ⟨_, _, rfl, rfl⟩⟩,
    ⟨⟨_, _, rfl, rfl⟩, ⟨_, _, rfl, rfl⟩, ⟨_, _, rfl, rfl⟩⟩, ?_⟩
  have hlength : Int64.ofInt crowd.length = 2147483648 := by
    rw [List.length_replicate]
    rfl
  have hcount := tollEnds_count crowd
  rw [hlength] at hcount
  exact hcount

end Host

end TypedQuery
