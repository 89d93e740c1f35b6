import TypedQuery.Proofs.Document.Typing

/-!
# Binding the parameters of queries

The parameters of a finished query are bound in one pass: the context, every variable to the
value that the query keeps for it, and then the services, of which the first missing one ends
the run before the plan is looked at.
-/

namespace TypedQuery

/-- A query to which an expression or a field of a document compiles, with the type of its
context and the variables that it is compiled with. -/
inductive Host.Compiles (host : Host) : Ty → Entries Value → Query → Prop
  | expression {contextTy : Ty} {vars : Entries Value} {source : String}
      {session session' : Session}
      {query : Query}
      (h : (Query.compile (host.scope vars) contextTy source) session = .ok query session') :
      Compiles host contextTy vars query
  | field {document : Document} {request : Request} {operation : Operation} {vars : Entries Value}
      {session session' : Session} {compiled : CompiledDocument} {name : String} {query : Query}
      (hoperation : document.operation request.operation? = .ok operation)
      (hvars : host.schema.bindVariables operation.vars request.vars = .ok vars)
      (h : (host.compileOperation document request) session = .ok compiled session')
      (hfield : (name, .query query) ∈ compiled.fields) :
      Compiles host host.schema.contextTy vars query

/-- What a caller of any claims needs so that expressions and documents compile to sound nodes. -/
structure Host.Sound (A : Assumptions) (host : Host) (vars : Entries Value) : Prop where
  scope : (host.scope vars).Sound A
  grants : ∀ claims, host.schema.Grants A claims
  reads : ∀ source, A.Reads source

mutual

/-- Where every name may be read, the sequence arguments of selections mention readable names. -/
theorem Selection.reads_of_forall {A : Assumptions} {vars : Entries Value}
    (h : ∀ source, A.Reads source) : (selection : Selection) → selection.Reads A vars
  | .spread _ _ => by
    unfold Selection.Reads
    trivial
  | .field _ _ _ selections _ => by
    unfold Selection.Reads
    exact ⟨fun _ _ _ source _ _ => h source, selectionsRead_of_forall h selections⟩

/-- Selections read only what is known if every source does. -/
theorem selectionsRead_of_forall {A : Assumptions} {vars : Entries Value}
    (h : ∀ source, A.Reads source) :
    (selections : List Selection) → selectionsRead A vars selections
  | [] => by
    unfold selectionsRead
    trivial
  | selection :: rest => by
    unfold selectionsRead
    exact ⟨Selection.reads_of_forall h selection, selectionsRead_of_forall h rest⟩

end

/-- What compiles on a sound host is the query of a sound node. -/
theorem Host.Compiles.sound {A : Assumptions} {host : Host} {contextTy : Ty} {vars : Entries Value}
    {query : Query} (h : host.Compiles contextTy vars query) (hhost : host.Sound A vars) :
    query.Sound A contextTy := by
  cases h with
  | expression h => exact Query.compile_ensures hhost.scope (hhost.reads _) _ _ _ h
  | field hoperation hvars h hfield =>
    exact compileOperation_sound hoperation hvars hhost.scope (hhost.grants _)
      (fun _ _ _ _ other _ => Selection.reads_of_forall hhost.reads other) _ _ _ h _ hfield _ rfl

namespace Query

variable {node : Node} {services : Services} {context : Value} {contextTy : Ty}

/-- The environment in which the plan of a node runs: every captured variable, the later ones
first, and then the context. -/
def environmentOf (node : Node) (context : Value) : Environment :=
  (node.constants.map fun entry => (constantName entry.1, entry.2)).reverse ++
    [(contextName, context)]

/-- Binding the constants of a query puts their values into the environment. -/
theorem bind_constants (constants : Entries Value) (rest : List Parameter)
    (environment : Environment) :
    bind services context
        (constants.map (fun entry => ⟨constantName entry.1, entry.2.staticType, .constant⟩) ++ rest)
        (Entries.values constants) environment =
      bind services context rest []
        ((constants.map fun entry => (constantName entry.1, entry.2)).reverse ++ environment) := by
  induction constants generalizing environment with
  | nil => rfl
  | cons entry constants ih =>
    simp only [List.map_cons, List.cons_append, Entries.values, bind, List.reverse_cons,
      List.append_assoc, List.nil_append]
    exact ih _

/-- Binding the services of a query succeeds exactly if none is missing, and names the first that
is. -/
theorem bind_services (names : List String) (environment : Environment) :
    bind services context (names.map fun service => ⟨service, .any, .service⟩) [] environment =
      match names.find? fun service => !Entries.contains services service with
      | some missing => .error (.missingService missing)
      | none => .ok environment := by
  induction names with
  | nil => rfl
  | cons service rest ih =>
    rw [List.map_cons, bind, List.find?_cons]
    by_cases h : Entries.contains services service = true
    · rw [if_pos h, h]
      exact ih
    · rw [if_neg h]
      have hmissing : (!Entries.contains services service) = true := by simpa using h
      rw [hmissing]

/-- The parameters of the query of a node are bound to the environment of the node, unless a
service is missing. -/
theorem bind_ofNode (node : Node) (contextTy : Ty) (services : Services) (context : Value) :
    bind services context (ofNode node contextTy).parameters (ofNode node contextTy).arguments [] =
      match node.services.find? fun service => !Entries.contains services service with
      | some missing => .error (.missingService missing)
      | none => .ok (environmentOf node context) := by
  refine (bind_constants node.constants (node.services.map fun service => ⟨service, .any, .service⟩)
    [(contextName, context)]).trans ?_
  exact bind_services node.services (environmentOf node context)

/-- The names of the constant parameters of a query, in the order of their values. -/
def constants (query : Query) : List String :=
  (query.parameters.filter fun parameter => parameter.kind = .constant).map Parameter.name

/-- The constants of the query of a node are what the node captures. -/
theorem constants_ofNode (node : Node) (contextTy : Ty) :
    (ofNode node contextTy).constants = node.constants.map fun entry => constantName entry.1 := by
  simp [ofNode, constants, List.filter_map, Function.comp_def]

/-- The values that the constant parameters of a query are bound to, the last parameter first. -/
def kept (query : Query) : Entries Value :=
  (query.constants.zip query.arguments).reverse

/-- The values that are kept for a query are those of the variables that its node captures. -/
theorem kept_ofNode (node : Node) (contextTy : Ty) :
    (ofNode node contextTy).kept =
      (node.constants.map fun entry => (constantName entry.1, entry.2)).reverse := by
  unfold kept
  rw [constants_ofNode, ofNode, Entries.values, List.zip_map']

/-- The services of the query of a node are those of the node. -/
theorem services_ofNode (node : Node) (contextTy : Ty) :
    (ofNode node contextTy).services = node.services := by
  simp [ofNode, services, List.filter_map, Function.comp_def]

/-- With its services, the query of a node runs its plan in the environment of the node. -/
theorem run_ofNode
    (hservices : ∀ service ∈ node.services, Entries.contains services service = true) :
    (ofNode node contextTy).run services context =
      node.plan.eval services (environmentOf node context) := by
  have hnone : node.services.find? (fun service => !Entries.contains services service) = none := by
    rw [List.find?_eq_none]
    intro service hservice
    simp [hservices service hservice]
  unfold run
  rw [bind_ofNode, hnone]
  rfl

/-- The value of a parameter of a running query is the context, or that of a captured variable. -/
theorem mem_of_lookup_environmentOf {name : String} {value : Value}
    (h : (environmentOf node context).lookup name = some value) :
    (name = contextName ∧ value = context) ∨
      ∃ entry ∈ node.constants, name = constantName entry.1 ∧ value = entry.2 := by
  have hmem : (name, value) ∈ environmentOf node context := Entries.mem_of_find? h
  rcases List.mem_append.mp hmem with h | h
  · obtain ⟨entry, hentry, heq⟩ := List.mem_map.mp (List.mem_reverse.mp h)
    obtain ⟨rfl, rfl⟩ := Prod.mk.inj heq
    exact Or.inr ⟨entry, hentry, rfl, rfl⟩
  · obtain ⟨rfl, rfl⟩ := Prod.mk.inj (List.mem_singleton.mp h)
    exact Or.inl ⟨rfl, rfl⟩

/-- The context and the captured variables have values in the environment of a node. -/
theorem exists_lookup_environmentOf {A : Assumptions} {name : String} {ty : Ty}
    (h : A.capturing (.only contextName contextTy) node.constants name ty) :
    ∃ value, (environmentOf node context).lookup name = some value := by
  rcases h with ⟨rfl, _⟩ | ⟨x, _, rfl, hx, _, _⟩
  · exact Entries.exists_find?_of_mem (List.mem_append_right _ (List.mem_singleton.mpr rfl))
  · obtain ⟨entry, hentry, rfl⟩ := List.mem_map.mp hx
    exact Entries.exists_find?_of_mem (List.mem_append_left _
      (List.mem_reverse.mpr (List.mem_map.mpr ⟨entry, hentry, rfl⟩)))

end Query

end TypedQuery
