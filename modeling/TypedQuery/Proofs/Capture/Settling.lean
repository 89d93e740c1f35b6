import TypedQuery.Plan.Eval
import TypedQuery.Proofs.Entries
import TypedQuery.Proofs.Lockstep.Compiling

/-!
# Variables written in place

A variable can be written into a plan with the value that it has where it stands, and then
nothing else in the query can change what it reads. A compiled plan has parameters in the place
of such variables. Expressions and documents compile in the same way with both, and give plans
that differ in nothing but their variables.
-/

namespace TypedQuery

open Halting

/-- The capture that writes the value of a variable into the plan where the variable stands. -/
def Capture.inPlace : Capture := fun name value =>
  (Node.ofPlan (.written name value)).withConstant name value

namespace Plan

/-- A plan is another plan with parameters in the place of the variables written in it. Those
variables are among the given names, and the other plan has no parameters for variables. -/
inductive Releases (names : List String) : Plan → Plan → Prop
  | const {ty : Ty} {value : Value} : Releases names (.const ty value) (.const ty value)
  | param {ty : Ty} {name : String} (hname : ∀ x, name ≠ constantName x) :
      Releases names (.param ty name) (.param ty name)
  | unary {ty : Ty} {op : UnaryOp} {operand exact : Plan}
      (hoperand : Releases names operand exact) :
      Releases names (.unary ty op operand) (.unary ty op exact)
  | binary {ty : Ty} {op : BinaryOp} {left right left' right' : Plan}
      (hleft : Releases names left left') (hright : Releases names right right') :
      Releases names (.binary ty op left right) (.binary ty op left' right')
  | cond {ty : Ty} {test yes no test' yes' no' : Plan} (htest : Releases names test test')
      (hyes : Releases names yes yes') (hno : Releases names no no') :
      Releases names (.cond ty test yes no) (.cond ty test' yes' no')
  | bind {ty : Ty} {binder : Binder} {source body source' body' : Plan} {name : String}
      (hname : ∀ x, name ≠ constantName x) (hsource : Releases names source source')
      (hbody : Releases names body body') :
      Releases names (.bind ty binder source name body) (.bind ty binder source' name body')
  | record {ty : Ty} {fields : Signature} {pairs : List (Plan × Plan)}
      (hvalues : ∀ pair ∈ pairs, Releases names pair.1 pair.2) :
      Releases names (.record ty fields (pairs.map Prod.fst))
        (.record ty fields (pairs.map Prod.snd))
  | call {ty : Ty} {name service : String} {run : HostFunction} {pairs : List (Plan × Plan)}
      (harguments : ∀ pair ∈ pairs, Releases names pair.1 pair.2) :
      Releases names (.call ty name (some service) run (pairs.map Prod.fst))
        (.call ty name (some service) run (pairs.map Prod.snd))
  | written {name : String} {value : Value} (hname : name ∈ names) :
      Releases names (.param value.staticType (constantName name)) (.written name value)

end Plan

/-- Compilations in the same session that have the same parameters, none of them for a variable but
those that take the place of written variables. -/
def Likeness.released : Likeness where
  names name other := name = other ∧ ∀ x, other ≠ constantName x
  binders name other := name = other ∧ ∀ x, other ≠ constantName x
  sessions := Eq
  written := True
  names_of_binders h := h
  unique := by
    rintro name _ reference _ ⟨rfl, _⟩ ⟨rfl, _⟩
    exact Iff.rfl
  separate := by
    rintro - name _ ⟨rfl, h⟩
    exact h
  fresh := by
    rintro _ session _ rfl
    exact ⟨⟨rfl, constantName_ne_fresh _⟩, rfl⟩
  create := by
    rintro _ fields session _ rfl
    exact ⟨rfl, rfl⟩

/-- Plans of such compilations differ in nothing but their variables. -/
theorem Plan.Alike.releases {captured : List String} {plan exact : Plan}
    (h : Plan.Alike .released captured plan exact) : Plan.Releases captured plan exact := by
  induction h with
  | const => exact .const
  | param hname =>
    obtain ⟨rfl, hname⟩ := hname
    exact .param hname
  | unary _ ih => exact .unary ih
  | binary _ _ ihl ihr => exact .binary ihl ihr
  | cond _ _ _ iht ihy ihn => exact .cond iht ihy ihn
  | bind hname _ _ ihs ihb =>
    obtain ⟨rfl, hname⟩ := hname
    exact .bind hname ihs ihb
  | record _ ih => exact .record ih
  | call _ ih => exact .call ih
  | written _ hname => exact .written hname

/-- A node is another node with parameters in the place of the variables written in it, which
both nodes capture. -/
structure Node.Releases (node exact : Node) : Prop where
  plan : node.plan.Releases (Entries.names exact.constants) exact.plan
  constants : node.constants = exact.constants
  services : node.services = exact.services

/-- Two queries are those of two nodes in the same context, one of which has parameters where
variables are written in the other. -/
def Query.Releases (query exact : Query) : Prop :=
  ∃ (node node' : Node) (contextTy : Ty), node.Releases node' ∧
    query = .ofNode node contextTy ∧ exact = .ofNode node' contextTy

/-- Queries that are alike but for variables that are written in place release these variables. -/
theorem Query.Alike.releases {query exact : Query} (h : query.Alike .released exact) :
    query.Releases exact := by
  obtain ⟨node, node', contextTy, hnode, hquery, hexact⟩ := h
  exact ⟨node, node', contextTy, ⟨hnode.plan.releases, hnode.constants, hnode.services⟩, hquery,
    hexact⟩

/-- The captures differ in nothing but how they stand for variables. -/
theorem Capture.parameter_released : Capture.Alike .released .parameter .inPlace :=
  fun _ _ => ⟨.written trivial (List.mem_singleton.mpr rfl), rfl, rfl⟩

/-- The context stands for itself. -/
theorem contextName_released : Likeness.released.names contextName contextName :=
  ⟨rfl, contextName_ne_constantName⟩

/-- A source text compiles in parallel. -/
theorem Query.compile_parallel {scope : Scope} (hmethods : scope.methods.Uniform .released)
    (contextTy : Ty) (source : String) :
    Halting.Parallel Query.Releases (Query.compile scope contextTy source)
      (Query.compile scope contextTy source .inPlace) :=
  parallel_iff_lockstep.mpr (.mono (Query.compile_lockstep Capture.parameter_released
    contextName_released hmethods contextTy source) fun _ _ h => h.releases)

/-- An operation of a document compiles in parallel. -/
theorem Host.compileOperation_parallel {host : Host} (hmethods : host.methods.Uniform .released)
    (document : Document) (request : Request) :
    Halting.Parallel (CompiledDocument.Related Query.Releases)
      (host.compileOperation document request)
      (host.compileOperation document request .inPlace) :=
  parallel_iff_lockstep.mpr (.mono (Host.compileOperation_lockstep Capture.parameter_released
    contextName_released hmethods document request) fun _ _ h => h.mono fun _ _ h => h.releases)

end TypedQuery

/-!
### What written variables become

Written variables read nothing of the environment. The parameters that take their place read
what the environment keeps under their names: running a compiled plan is running the plan with
written variables after each of them got the kept value.
-/

namespace TypedQuery.Plan

mutual

/-- The variables that are written in a plan, with the values that they have where they stand. -/
def captures : Plan → List (String × Value)
  | const _ _ | param _ _ => []
  | unary _ _ operand => captures operand
  | binary _ _ left right => captures left ++ captures right
  | cond _ test yes no => captures test ++ (captures yes ++ captures no)
  | bind _ _ source _ body => captures source ++ captures body
  | record _ _ values => capturesAll values
  | call _ _ (some _) _ arguments => capturesAll arguments
  | call _ name none run _ =>
    match run none [] with
    | .ok value => [(name, value)]
    | .error _ => []

/-- The same for a list of plans. -/
def capturesAll : List Plan → List (String × Value)
  | [] => []
  | plan :: rest => captures plan ++ capturesAll rest

end

mutual

/-- Gives every written variable the value that is kept under its name. -/
def settle (kept : Entries Value) : Plan → Plan
  | const ty value => const ty value
  | param ty name => param ty name
  | unary ty op operand => unary ty op (settle kept operand)
  | binary ty op left right => binary ty op (settle kept left) (settle kept right)
  | cond ty test yes no => cond ty (settle kept test) (settle kept yes) (settle kept no)
  | bind ty binder source name body => bind ty binder (settle kept source) name (settle kept body)
  | record ty fields values => record ty fields (settleAll kept values)
  | call ty name (some service) run arguments =>
    call ty name (some service) run (settleAll kept arguments)
  | call ty name none run arguments =>
    match Entries.find? kept name with
    | some value => call ty name none (fun _ _ => .ok value) []
    | none => call ty name none run arguments

/-- The same for a list of plans. -/
def settleAll (kept : Entries Value) : List Plan → List Plan
  | [] => []
  | plan :: rest => settle kept plan :: settleAll kept rest

end

variable {names : List String} {plan exact : Plan} {services : Services}
variable {environment other : Environment} {kept : Entries Value}

/-- The item of a binder does not cover variables. -/
theorem lookup_cons_constantName {binder : String} {item : Value}
    (h : ∀ x, binder ≠ constantName x) (x : String) :
    List.lookup (constantName x) ((binder, item) :: environment) =
      environment.lookup (constantName x) := by
  have hne : (constantName x == binder) = false := beq_false_of_ne (Ne.symm (h x))
  rw [List.lookup_cons, hne]

/-- Plans have the same values with their variables settled. -/
theorem evalAll_settleAll {pairs : List (Plan × Plan)}
    (h : ∀ pair ∈ pairs,
      pair.1.eval services environment = (pair.2.settle kept).eval services environment) :
    evalAll services environment (pairs.map Prod.fst) =
      evalAll services environment (settleAll kept (pairs.map Prod.snd)) := by
  induction pairs with
  | nil => rfl
  | cons pair rest ih =>
    rw [List.map_cons, List.map_cons]
    unfold settleAll evalAll
    rw [h pair List.mem_cons_self, ih fun other hother => h other (List.mem_cons_of_mem _ hother)]

/-- A plan runs as the plan with written variables does after they got the values that are kept
for them, if the environment keeps the same values. -/
theorem Releases.eval_settle (h : Releases names plan exact)
    (hkept : ∀ x ∈ names, ∃ value, Entries.find? kept (constantName x) = some value ∧
      environment.lookup (constantName x) = some value) :
    plan.eval services environment = (exact.settle kept).eval services environment := by
  -- on the likeness; binders do not cover variables, so that these are kept inside of them too
  induction h generalizing environment with
  | const => rfl
  | param _ => rfl
  | unary _ ih =>
    unfold settle eval
    rw [ih hkept]
  | binary _ _ ihl ihr =>
    unfold settle eval
    rw [ihl hkept, ihr hkept]
  | cond _ _ _ iht ihy ihn =>
    unfold settle eval
    rw [iht hkept, ihy hkept, ihn hkept]
  | @bind _ _ _ body _ body' name hname _ _ ihs ihb =>
    have hbody : ∀ item : Value, body.eval services ((name, item) :: environment) =
        (body'.settle kept).eval services ((name, item) :: environment) := by
      intro item
      refine ihb fun x hx => ?_
      rw [lookup_cons_constantName hname]
      exact hkept x hx
    unfold settle eval
    rw [ihs hkept]
    simp only [hbody]
  | record _ ih =>
    unfold settle eval
    rw [evalAll_settleAll fun pair hpair => ih pair hpair hkept]
  | call _ ih =>
    unfold settle eval
    rw [evalAll_settleAll fun pair hpair => ih pair hpair hkept]
  | written hname =>
    obtain ⟨value, hfind, hlookup⟩ := hkept _ hname
    unfold Plan.written settle
    rw [hfind]
    unfold eval
    rw [hlookup]
    rfl

/-- Plans that have the same values one by one have the same values. -/
theorem evalAll_congr {plans : List Plan}
    (h : ∀ plan ∈ plans, plan.eval services environment = plan.eval services other) :
    evalAll services environment plans = evalAll services other plans := by
  induction plans with
  | nil => rfl
  | cons plan rest ih =>
    unfold evalAll
    rw [h plan List.mem_cons_self, ih fun more hmore => h more (List.mem_cons_of_mem _ hmore)]

/-- A plan with written variables reads no parameter of a variable. -/
theorem Releases.eval_congr (h : Releases names plan exact)
    (hagree : ∀ name, (∀ x, name ≠ constantName x) → environment.lookup name = other.lookup name) :
    exact.eval services environment = exact.eval services other := by
  induction h generalizing environment other with
  | const => rfl
  | param hname =>
    unfold eval
    rw [hagree _ hname]
  | unary _ ih =>
    unfold eval
    rw [ih hagree]
  | binary _ _ ihl ihr =>
    unfold eval
    rw [ihl hagree, ihr hagree]
  | cond _ _ _ iht ihy ihn =>
    unfold eval
    rw [iht hagree, ihy hagree, ihn hagree]
  | @bind _ _ _ _ _ body' name hname _ _ ihs ihb =>
    have hbody : ∀ item : Value, body'.eval services ((name, item) :: environment) =
        body'.eval services ((name, item) :: other) := by
      intro item
      refine ihb fun free hfree => ?_
      rw [List.lookup_cons, List.lookup_cons, hagree free hfree]
    unfold eval
    rw [ihs hagree]
    simp only [hbody]
  | record _ ih =>
    unfold eval
    rw [evalAll_congr (List.forall_mem_map.mpr fun pair hpair => ih pair hpair hagree)]
  | call _ ih =>
    unfold eval
    rw [evalAll_congr (List.forall_mem_map.mpr fun pair hpair => ih pair hpair hagree)]
  | written _ => rfl

/-- Nothing is settled anew exactly when every written variable has the value that is kept. -/
theorem Releases.settle_eq_iff (h : Releases names plan exact)
    (hkept : ∀ x ∈ names, ∃ value, Entries.find? kept (constantName x) = some value) :
    exact.settle kept = exact ↔
      ∀ entry ∈ exact.captures, Entries.find? kept entry.1 = some entry.2 := by
  -- the same for several plans, when it holds of each
  have hall : ∀ {plans : List Plan}, (∀ plan ∈ plans, plan.settle kept = plan ↔
      ∀ entry ∈ plan.captures, Entries.find? kept entry.1 = some entry.2) →
      (settleAll kept plans = plans ↔
        ∀ entry ∈ capturesAll plans, Entries.find? kept entry.1 = some entry.2) := by
    intro plans hplans
    induction plans with
    | nil => simp [settleAll, capturesAll]
    | cons plan rest ih =>
      obtain ⟨hplan, hrest⟩ := List.forall_mem_cons.mp hplans
      unfold settleAll capturesAll
      rw [List.cons.injEq, List.forall_mem_append, hplan, ih hrest]
  induction h with
  | const => simp [settle, captures]
  | param _ => simp [settle, captures]
  | unary _ ih => simp [settle, captures, ih]
  | binary _ _ ihl ihr => simp [settle, captures, ihl, ihr, or_imp, forall_and]
  | cond _ _ _ iht ihy ihn => simp [settle, captures, iht, ihy, ihn, or_imp, forall_and]
  | bind _ _ _ ihs ihb => simp [settle, captures, ihs, ihb, or_imp, forall_and]
  | record _ ih => simp [settle, captures, hall (List.forall_mem_map.mpr ih)]
  | call _ ih => simp [settle, captures, hall (List.forall_mem_map.mpr ih)]
  | @written x value hname =>
    obtain ⟨found, hfound⟩ := hkept x hname
    unfold Plan.written settle captures
    rw [hfound]
    constructor
    · intro hsettled entry hentry
      have hrun : (fun _ _ => .ok found : HostFunction) = fun _ _ => .ok value :=
        (call.inj hsettled).2.2.2.1
      have hvalue : found = value := Except.ok.inj (congrFun (congrFun hrun none) [])
      rw [List.mem_singleton.mp hentry, hfound, hvalue]
    · intro hentries
      have hvalue := hfound.symm.trans
        (hentries (constantName x, value) (List.mem_singleton.mpr rfl))
      cases hvalue
      rfl

end TypedQuery.Plan
