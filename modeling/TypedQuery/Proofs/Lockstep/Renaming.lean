import TypedQuery.Proofs.Lockstep.Compiling
import TypedQuery.Proofs.Query.Closed

/-!
# Names of parameters

Names of parameters are numbered through a session. What compiles in one session compiles in every
other one, to plans that differ in nothing but the numbers, and such plans have the same values.
-/

namespace TypedQuery

open Halting

/-- The name of the parameter with a number. -/
def parameterName (n : Nat) : String :=
  "p" ++ toString n

/-- Numbers differ in their digits. -/
theorem toString_inj {m n : Nat} (h : toString m = toString n) : m = n := by
  rw [Nat.toString_eq_ofList_toDigits, Nat.toString_eq_ofList_toDigits, String.ofList_inj] at h
  have hread := congrArg (fun digits => Nat.ofDigitChars 10 digits 0) h
  simpa only [Nat.ofDigitChars_ten_toDigits] using hread

/-- Parameters have one name only if they have one number. -/
theorem parameterName_inj {m n : Nat} : parameterName m = parameterName n ↔ m = n :=
  ⟨fun h => toString_inj ((String.append_right_inj "p").mp h), fun h => h ▸ rfl⟩

/-- The context is named like no parameter with a number. -/
theorem contextName_ne_parameterName (n : Nat) : contextName ≠ parameterName n := by
  intro h
  have htoList : contextName.toList.head? = (parameterName n).toList.head? := by rw [h]
  simp [contextName, parameterName] at htoList

/-- No parameter that gets its name after a number of others has the name. -/
def Apart (name : String) (count : Nat) : Prop :=
  ∀ i, name ≠ parameterName (count + i)

/-- A name that is apart from later parameters is apart from still later ones. -/
theorem Apart.mono {name : String} {count more : Nat} (h : Apart name count) (hle : count ≤ more) :
    Apart name more := by
  intro i
  obtain ⟨j, rfl⟩ := Nat.exists_eq_add_of_le hle
  rw [Nat.add_assoc]
  exact h (j + i)

/-- The name of a parameter is apart from those that come after it. -/
theorem apart_parameterName (n : Nat) : Apart (parameterName n) (n + 1) := by
  intro i h
  have := parameterName_inj.mp h
  omega

/-- The name of the context is apart from all parameters. -/
theorem apart_contextName (count : Nat) : Apart contextName count :=
  fun _ => contextName_ne_parameterName _

namespace Likeness

/-- Compilations in sessions with different numbers of parameters, each on a parameter that is
apart from those that are numbered there. -/
def renamed {first second : Nat} {root root' : String} (hroot : Apart root first)
    (hroot' : Apart root' second) : Likeness where
  names name other := name = root ∧ other = root' ∨
    (∃ i, name = parameterName (first + i) ∧ other = parameterName (second + i)) ∨
    ∃ x, name = constantName x ∧ other = constantName x
  binders name other :=
    ∃ i, name = parameterName (first + i) ∧ other = parameterName (second + i)
  sessions session session' :=
    ∃ i, session.parameters = first + i ∧ session'.parameters = second + i
  written := False
  names_of_binders h := Or.inr (Or.inl h)
  unique := by
    rintro _ _ reference reference' ⟨i, rfl, rfl⟩ (⟨rfl, rfl⟩ | ⟨j, rfl, rfl⟩ | ⟨x, rfl, rfl⟩)
    · exact ⟨fun h => absurd h (hroot i), fun h => absurd h (hroot' i)⟩
    · rw [parameterName_inj, parameterName_inj]
      omega
    · exact ⟨fun h => absurd h.symm (constantName_ne_fresh _ x),
        fun h => absurd h.symm (constantName_ne_fresh _ x)⟩
  separate h := h.elim
  fresh := by
    rintro _ session session' ⟨i, hi, hi'⟩
    refine ⟨⟨i, ?_, ?_⟩, i + 1, ?_, ?_⟩
    · rw [← hi]
      rfl
    · rw [← hi']
      rfl
    · exact congrArg (· + 1) hi
    · exact congrArg (· + 1) hi'
  create := by
    rintro _ fields session session' ⟨i, hi, hi'⟩
    have hfields : (session.register.create fields).1.fields =
        (session'.register.create fields).1.fields := by
      rw [Register.fields_create, Register.fields_create]
    exact ⟨hfields, i, hi, hi'⟩

variable {first second : Nat} {root root' : String} (hroot : Apart root first)
  (hroot' : Apart root' second)

/-- The parameter of a variable has its name in every session. -/
theorem parameter_alike : Capture.parameter.Alike (renamed hroot hroot') .parameter :=
  fun name _ => ⟨.param (Or.inr (Or.inr ⟨name, rfl, rfl⟩)), rfl, rfl⟩

/-- The parameters on which the compilations start. -/
theorem root_alike (ty : Ty) :
    (Node.ofPlan (.param ty root)).Alike (renamed hroot hroot') (.ofPlan (.param ty root')) :=
  Node.alike_param ty (Or.inl ⟨rfl, rfl⟩)

end Likeness

namespace Scope

/-- The value of a selection set, or each item of it, gets the next parameter of the session. -/
theorem selectOn_eq_ok {source node : Node} {path : List String}
    {build : Node → Run FieldFailure Node} {session final : Session} :
    selectOn source path build session = .ok node final ↔
      ∃ item overItems record, selectedTy source.ty = .ok (item, overItems) ∧
        build (.ofPlan (.param item (parameterName session.parameters)))
          { session with parameters := session.parameters + 1 } = .ok record final ∧
        node = source.join record
          (if overItems then source.plan.project (parameterName session.parameters) record.plan
            else source.plan.given (parameterName session.parameters) record.plan) := by
  unfold selectOn
  rw [check_eq_ok]
  constructor
  · rintro ⟨⟨item, overItems⟩, hitem, hrun⟩
    obtain ⟨_, _, hname, hrun⟩ := bind_eq_ok.mp hrun
    cases hname
    obtain ⟨record, _, hrecord, hend⟩ := bind_eq_ok.mp hrun
    obtain ⟨rfl, rfl⟩ := pure_eq_ok.mp hend
    exact ⟨item, overItems, record, eq_ok_of_mapError hitem, hrecord, rfl⟩
  · rintro ⟨item, overItems, record, hitem, hrecord, rfl⟩
    refine ⟨(item, overItems), ?_, bind_eq_ok.mpr ⟨_, _, rfl, bind_eq_ok.mpr ⟨record, final,
      hrecord, rfl⟩⟩⟩
    rw [hitem]
    rfl

end Scope

variable {L : Likeness} {captured : List String} {services : Services}

/-- Plans with the same values one by one have the same values. -/
theorem Plan.evalAll_eq {environment other : Environment} {pairs : List (Plan × Plan)}
    (h : ∀ pair ∈ pairs, pair.1.eval services environment = pair.2.eval services other) :
    evalAll services environment (pairs.map Prod.fst) =
      evalAll services other (pairs.map Prod.snd) := by
  induction pairs with
  | nil => rfl
  | cons pair rest ih =>
    rw [List.map_cons, List.map_cons]
    unfold evalAll
    rw [h pair List.mem_cons_self, ih fun more hmore => h more (List.mem_cons_of_mem _ hmore)]

/-- Plans that differ in the names of parameters have the same value where their free parameters
have the same values. -/
theorem Plan.Alike.eval_eq {plan exact : Plan} (h : Plan.Alike L captured plan exact)
    (hwritten : ¬ L.written) {environment other : Environment}
    (hfree : ∀ name ∈ plan.free, ∀ name', L.names name name' → ∃ value,
      environment.lookup name = some value ∧ other.lookup name' = some value) :
    plan.eval services environment = exact.eval services other := by
  -- on the likeness; inside of a binder the two parameters that stand for each other hold the item
  induction h generalizing environment other with
  | const => rfl
  | @param _ name name' hname =>
    obtain ⟨value, hvalue, hvalue'⟩ := hfree name (List.mem_singleton.mpr rfl) name' hname
    unfold eval
    rw [hvalue, hvalue']
  | unary _ ih =>
    unfold eval
    rw [ih hfree]
  | binary _ _ ihl ihr =>
    obtain ⟨hleft, hright⟩ := List.forall_mem_append.mp hfree
    unfold eval
    rw [ihl hleft, ihr hright]
  | cond _ _ _ iht ihy ihn =>
    obtain ⟨htest, hbranches⟩ := List.forall_mem_append.mp hfree
    obtain ⟨hyes, hno⟩ := List.forall_mem_append.mp hbranches
    unfold eval
    rw [iht htest, ihy hyes, ihn hno]
  | @bind _ _ _ body _ body' name name' hbinder _ _ ihs ihb =>
    obtain ⟨hsource, hinner⟩ := List.forall_mem_append.mp hfree
    have hbody : ∀ item : Value, body.eval services ((name, item) :: environment) =
        body'.eval services ((name', item) :: other) := by
      intro item
      refine ihb fun reference hmem reference' hreference => ?_
      have hunique := L.unique hbinder hreference
      by_cases hname : reference = name
      · rw [hname, hunique.mp hname, List.lookup_cons_self, List.lookup_cons_self]
        exact ⟨item, rfl, rfl⟩
      · rw [List.lookup_cons, List.lookup_cons, beq_false_of_ne hname,
          beq_false_of_ne fun h => hname (hunique.mpr h)]
        exact hinner reference (List.mem_filter.mpr ⟨hmem, by simpa using hname⟩) _ hreference
    unfold eval
    rw [ihs hsource]
    simp only [hbody]
  | record _ ih =>
    unfold eval
    rw [evalAll_eq fun pair hpair => ih pair hpair fun name hname => hfree name
      (mem_freeAll.mpr ⟨pair.1, List.mem_map_of_mem hpair, hname⟩)]
  | call _ ih =>
    unfold eval
    rw [evalAll_eq fun pair hpair => ih pair hpair fun name hname => hfree name
      (mem_freeAll.mpr ⟨pair.1, List.mem_map_of_mem hpair, hname⟩)]
  | written h => exact absurd h hwritten

namespace Query

/-- Two queries differ in nothing but the numbers of parameters that are bound in them. -/
def Renamed (query other : Query) : Prop :=
  ∃ first second, query.Alike (.renamed (apart_contextName first) (apart_contextName second)) other

variable {query other : Query}

/-- Renamed queries have the same parameters of their own. -/
theorem Renamed.parameters_eq (h : query.Renamed other) : query.parameters = other.parameters := by
  obtain ⟨first, second, node, node', contextTy, hnode, rfl, rfl⟩ := h
  unfold ofNode
  rw [hnode.constants, hnode.services]

/-- Renamed queries have the same arguments. -/
theorem Renamed.arguments_eq (h : query.Renamed other) : query.arguments = other.arguments := by
  obtain ⟨first, second, node, node', contextTy, hnode, rfl, rfl⟩ := h
  unfold ofNode
  rw [hnode.constants]

/-- Queries that differ in nothing but the numbers of parameters give the same. -/
theorem Renamed.run_eq (h : query.Renamed other) (hclosed : query.Closed) (services : Services)
    (context : Value) : query.run services context = other.run services context := by
  have hparameters := h.parameters_eq
  have harguments := h.arguments_eq
  obtain ⟨first, second, node, node', contextTy, hnode, rfl, rfl⟩ := h
  unfold run
  rw [← hparameters, ← harguments, bind_ofNode]
  split
  · rfl
  · refine hnode.plan.eval_eq (fun h => h) fun name hname name' hnames => ?_
    have hbound : ∃ value, (name, value) ∈ environmentOf node context := by
      rcases hclosed.parameters name hname with rfl | ⟨value, hvalue⟩
      · exact ⟨context, List.mem_append_right _ (List.mem_singleton.mpr rfl)⟩
      · refine ⟨value, List.mem_append_left _ (List.mem_reverse.mpr ?_)⟩
        rwa [constants_ofNode, ofNode, Entries.values, List.zip_map'] at hvalue
    obtain ⟨value, hvalue⟩ := hbound
    obtain ⟨found, hfound⟩ := Entries.exists_find?_of_mem hvalue
    have hsame : name = name' := by
      rcases hnames with ⟨rfl, rfl⟩ | ⟨i, rfl, rfl⟩ | ⟨x, rfl, rfl⟩
      · rfl
      · rcases mem_of_lookup_environmentOf hfound with ⟨h, _⟩ | ⟨entry, _, h, _⟩
        · exact absurd h.symm (contextName_ne_parameterName _)
        · exact absurd h (constantName_ne_fresh _ _)
      · rfl
    exact ⟨found, hfound, hsame ▸ hfound⟩

end Query

end TypedQuery
