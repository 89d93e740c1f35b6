import TypedQuery.Document.Execution
import TypedQuery.Proofs.Plan.Preservation
import TypedQuery.Proofs.Register.Numbering
import TypedQuery.Proofs.Schema.Binding

/-!
# What a routine receives

The arguments of a mutation reach its routine as a record. Its fields come from the list of declared
arguments, and its values, by their places, from the bound ones. Names may be declared more than
once, also because different names have one public spelling. Both lists then keep the first place of
a name and its last declaration, so that the places agree.
-/

namespace TypedQuery

open Halting

/-- A look-up by the place of a name among fields is one among entries of the same names. -/
theorem Value.fieldOf?_values {fields : Signature} {entries : Entries Value}
    (hnames : Entries.names fields = Entries.names entries) (name : String) :
    fieldOf? fields entries.values name = Entries.find? entries name := by
  unfold fieldOf? Signature.index?
  induction fields generalizing entries with
  | nil =>
    cases entries with
    | nil => rfl
    | cons entry rest => cases hnames
  | cons field rest ih =>
    cases entries with
    | nil => cases hnames
    | cons entry others =>
      obtain ⟨hfirst, hrest⟩ := List.cons.inj hnames
      rw [List.findIdx?_cons, Entries.find?_cons, ← hfirst]
      by_cases hname : field.1 = name
      · rw [if_pos hname.symm]
        simp [hname, Entries.values]
      · rw [if_neg (Ne.symm hname), ← ih hrest]
        simp [hname, Entries.values, Option.bind_map]

namespace Mutation

/-- The declared arguments under their names. -/
def declared (mutation : Mutation) : Entries ArgumentDefinition :=
  mutation.arguments.map fun argument => (argument.name, argument)

variable {mutation : Mutation} {schema : Schema} {services : Services} {claims : Claims}
  {context : Value} {supplied bound : Entries Value} {invocation : Invocation}
  {world after : World}

/-- The declared arguments stand under their names. -/
theorem names_declared (mutation : Mutation) :
    mutation.declared.names = mutation.arguments.map ArgumentDefinition.name := by
  unfold declared Entries.names
  rw [List.map_map]
  rfl

/-- The fields of the record of arguments: every name with the type of its last declaration. -/
def fields (mutation : Mutation) : Signature :=
  (Entries.ofList mutation.declared).mapValues ArgumentDefinition.ty

/-- The fields are the declared types, repetitions settled. -/
theorem fields_eq (mutation : Mutation) : mutation.fields =
    Entries.ofList (mutation.arguments.map fun argument => (argument.name, argument.ty)) := by
  unfold fields
  rw [← Entries.ofList_mapValues]
  unfold declared Entries.mapValues
  rw [List.map_map]
  rfl

/-- There is one field for each name, where the name is first declared. -/
theorem names_fields (mutation : Mutation) :
    Entries.names mutation.fields = mutation.declared.names.eraseDups :=
  Entries.names_mapValues.trans (Entries.names_ofList _)

/-- A field has the type of the last declaration of its name. -/
theorem type?_fields {name : String} {argument : ArgumentDefinition}
    (h : mutation.declared.LastUnder name argument) :
    mutation.fields.type? name = some argument.ty := by
  have hfound : Entries.find? (Entries.ofList mutation.declared) name = some argument :=
    Entries.find?_ofList_eq_some_iff.mpr h
  change Entries.find? mutation.fields name = _
  unfold fields
  rw [Entries.find?_mapValues, hfound]
  rfl

/-- The world in which the arguments of a mutation have their record type. -/
def registered (mutation : Mutation) (world : World) : World :=
  if world.register.shared then
    { world with register := (world.register.create
        (mutation.arguments.map fun argument => (argument.name, argument.ty))).2 }
  else world

/-- Record types are not in the store. -/
@[simp] theorem store_registered (mutation : Mutation) (world : World) :
    (mutation.registered world).store = world.store := by
  unfold registered
  split <;> rfl

/-- The arguments of a mutation get their record type. -/
theorem sharedType_eq_ok {ε : Type} (mutation : Mutation) (world : World) :
    (Execution.sharedType (mutation.arguments.map fun argument => (argument.name, argument.ty)) :
        Execution ε Signature) world =
      .ok mutation.fields (mutation.registered world) := by
  rw [fields_eq]
  unfold registered Execution.sharedType
  refine (bind_of_ok (rfl : (get : Execution ε World) world = .ok world world)).trans ?_
  cases world.register.shared with
  | false => rfl
  | true =>
    rw [if_pos rfl, if_pos rfl, ← world.register.fields_create]
    rfl

variable (mutation schema services claims context supplied world) in
/-- What the invocation of a mutation comes to. Where the caller may not call it, or where the
arguments cannot be bound, nothing has happened. The arguments have their record type before
services are looked up, whether these are there or not. -/
theorem invocation_cases :
    (∃ fault, Schema.authorize mutation.name mutation.requirement? claims = .error fault ∧
      mutation.invocation schema services claims context supplied world =
        .error (.fault fault) world) ∨
    Schema.authorize mutation.name mutation.requirement? claims = .ok () ∧
      ((∃ fault, schema.bindArguments mutation.name mutation.arguments supplied = .error fault ∧
        mutation.invocation schema services claims context supplied world =
          .error (.fault fault) world) ∨
      ∃ bound, schema.bindArguments mutation.name mutation.arguments supplied = .ok bound ∧
        ((∃ service, services.resolve mutation.services = .error service ∧
          mutation.invocation schema services claims context supplied world =
            .error (.fault (.missingService service)) (mutation.registered world)) ∨
        ∃ resolved, services.resolve mutation.services = .ok resolved ∧
          mutation.invocation schema services claims context supplied world =
            .ok ⟨context, .newRecord mutation.fields bound.values, resolved⟩
              (mutation.registered world))) := by
  unfold Mutation.invocation
  cases hpasses : Schema.authorize mutation.name mutation.requirement? claims with
  | error fault => exact .inl ⟨fault, rfl, rfl⟩
  | ok granted =>
    refine .inr ⟨rfl, ?_⟩
    cases hbound : schema.bindArguments mutation.name mutation.arguments supplied with
    | error fault => exact .inl ⟨fault, rfl, rfl⟩
    | ok bound =>
      refine .inr ⟨bound, rfl, ?_⟩
      cases hresolved : services.resolve mutation.services with
      | error service => exact .inl ⟨service, rfl, bind_of_ok (mutation.sharedType_eq_ok world)⟩
      | ok resolved => exact .inr ⟨resolved, rfl, bind_of_ok (mutation.sharedType_eq_ok world)⟩

/-- A mutation that is not invoked is refused for a reason, and the world is as it was. Only a
missing service is found after the arguments have got their record type. -/
theorem invocation_eq_error {halt : Halt CompileFault} (h : mutation.invocation schema services
      claims context supplied world = .error halt after) :
    ∃ fault, halt = .fault fault ∧ (after = world ∨
      ∃ service, fault = .missingService service ∧ after = mutation.registered world) := by
  rcases invocation_cases mutation schema services claims context supplied world with
    ⟨fault, -, hrun⟩ | ⟨-, ⟨fault, -, hrun⟩ | ⟨bound, -, ⟨service, -, hrun⟩ |
      ⟨resolved, -, hrun⟩⟩⟩
  · cases hrun.symm.trans h
    exact ⟨fault, rfl, .inl rfl⟩
  · cases hrun.symm.trans h
    exact ⟨fault, rfl, .inl rfl⟩
  · cases hrun.symm.trans h
    exact ⟨_, rfl, .inr ⟨service, rfl, rfl⟩⟩
  · cases hrun.symm.trans h

/-- A routine is only called with arguments that are bound, and when they have their record
type. -/
theorem exists_bound (h : mutation.invocation schema services claims context supplied world =
      .ok invocation after) :
    ∃ bound, schema.bindArguments mutation.name mutation.arguments supplied = .ok bound ∧
      invocation.arguments = .newRecord mutation.fields bound.values ∧
      after = mutation.registered world := by
  -- of the four ends only one is a call
  rcases invocation_cases mutation schema services claims context supplied world with
    ⟨fault, -, hrun⟩ | ⟨-, ⟨fault, -, hrun⟩ | ⟨bound, hbound, ⟨service, -, hrun⟩ |
      ⟨resolved, -, hrun⟩⟩⟩
  · cases hrun.symm.trans h
  · cases hrun.symm.trans h
  · cases hrun.symm.trans h
  · cases hrun.symm.trans h
    exact ⟨bound, hbound, rfl, rfl⟩

/-- Every declared argument is bound by itself. -/
theorem related_declared {pairs : Entries Value}
    (h : schema.BindsAll supplied mutation.arguments pairs) :
    Entries.Related (schema.Binds supplied) mutation.declared pairs :=
  List.forall₂_map_left_iff.mpr (h.imp fun _ _ hpair => ⟨hpair.1.symm, hpair.2⟩)

/-- There is a value for each field. -/
theorem length_values (hnames : Entries.names mutation.fields = bound.names) :
    bound.values.length = mutation.fields.length := by
  simpa [Entries.names, Entries.values] using (congrArg List.length hnames).symm

/-- The process has the record type of the arguments. -/
theorem exists_type_registered (mutation : Mutation) (hshared : world.register.shared = true) :
    ∃ type, (mutation.registered world).register.find? mutation.fields = some type := by
  unfold registered
  rw [if_pos hshared, fields_eq, Signature.ofList_eq_settled]
  exact ⟨_, Register.find?_create _ _⟩

/-- A routine that is called receives its arguments as a record with one field for each declared
name, in the order in which the names are first declared. A field has the type of the last
declaration of its name, and a look-up gives just what the name is bound to, which is what that
declaration binds. Names that are not declared are not found. The process has the record type. -/
theorem invocation_aligned
    (h : mutation.invocation schema services claims context supplied world =
      .ok invocation after) :
    ∃ (bound : Entries Value) (fields : Signature),
      schema.bindArguments mutation.name mutation.arguments supplied = .ok bound ∧
      invocation.arguments = .record fields bound.values ∧
      fields.length = bound.values.length ∧
      Entries.names fields = (mutation.arguments.map ArgumentDefinition.name).eraseDups ∧
      (∀ name argument, mutation.declared.LastUnder name argument →
        fields.type? name = some argument.ty ∧
          ∃ value, bound.find? name = some value ∧ schema.Binds supplied argument value) ∧
      (∀ name, invocation.arguments.member? name = bound.find? name) ∧
      (world.register.shared = true → ∃ type, after.register.find? fields = some type) := by
  obtain ⟨bound, hbound, harguments, rfl⟩ := exists_bound h
  obtain ⟨-, pairs, hpairs, rfl⟩ := Schema.bindArguments_eq_ok.mp hbound
  have hrelated := related_declared hpairs
  have hnames : Entries.names mutation.fields = Entries.names (Entries.ofList pairs) := by
    rw [names_fields, Entries.names_ofList, hrelated.names]
  have hlength := length_values hnames
  have hrecord := harguments.trans (Value.newRecord_of_length hlength)
  refine ⟨_, mutation.fields, hbound, hrecord, hlength.symm, ?_, fun name argument hlast => ?_,
    fun name => ?_, mutation.exists_type_registered⟩
  · rw [names_fields, names_declared]
  · obtain ⟨value, hvalue, hbinds⟩ := hrelated.lastUnder hlast
    exact ⟨type?_fields hlast, value, Entries.find?_ofList_eq_some_iff.mpr hvalue, hbinds⟩
  · rw [hrecord]
    exact Value.fieldOf?_values hnames name

/-- A mutation with two arguments of one public name, of different types. -/
def rateMutation : Mutation := publish {
  name := "SetRate"
  contextTy := .any
  arguments := [⟨"rate_limit", .decimal, none⟩, ⟨"user", .string, none⟩,
    ⟨"rateLimit", .int .i16, none⟩]
  services := []
  requirement? := none
  resultTy := .any
  routine := fun invocation => pure (.value invocation.arguments .any) }

/-- The number stands in the first field, as an integer and not as a decimal. -/
theorem invocation_aligned_rate :
    ∃ invocation after fields, rateMutation.invocation .empty [] .none .null
        [("user", .text "Ada"), ("rateLimit", .int 5)] ⟨.null, .process⟩ = .ok invocation after ∧
      invocation.arguments = .record fields [.int 5, .text "Ada"] ∧
      Entries.names fields = ["rateLimit", "user"] ∧
      fields.type? "rateLimit" = some (.int .i16) ∧
      invocation.arguments.member? "rateLimit" = some (.int 5) ∧
      ∃ type, after.register.find? fields = some type := by
  have hinvocation : ∃ invocation after, rateMutation.invocation .empty [] .none .null
      [("user", .text "Ada"), ("rateLimit", .int 5)] ⟨.null, .process⟩ =
        .ok invocation after := ⟨_, _, rfl⟩
  have hbindings : Schema.empty.bindArguments rateMutation.name rateMutation.arguments
      [("user", .text "Ada"), ("rateLimit", .int 5)] =
        .ok [("rateLimit", .int 5), ("user", .text "Ada")] := rfl
  have hlast : rateMutation.declared.LastUnder "rateLimit" ⟨"rateLimit", .int .i16, none⟩ :=
    ⟨[("rateLimit", ⟨"rateLimit", .decimal, none⟩), ("user", ⟨"user", .string, none⟩)], [], rfl,
      List.not_mem_nil⟩
  obtain ⟨invocation, after, h⟩ := hinvocation
  obtain ⟨bound, fields, hbound, hrecord, -, hnames, htypes, hmember, htype⟩ :=
    invocation_aligned h
  cases hbound.symm.trans hbindings
  exact ⟨invocation, after, fields, h, hrecord, hnames, (htypes _ _ hlast).1, hmember _, htype rfl⟩

end Mutation

end TypedQuery
