import TypedQuery.Proofs.Entries
import TypedQuery.Proofs.Schema.Accepting

/-!
# Bound arguments

Every declared argument is bound by itself: to what the last value under its name is accepted as,
to its default if there is none, or to `null`. Binding fails exactly if one of these is missing or
refused, or if a name is not declared. A default is bound as it is declared, so it is the same value
when it is supplied only if it is in the form of its type already.
-/

namespace TypedQuery

namespace Schema

/-- The value that an argument is bound to. -/
inductive Binds (schema : Schema) (supplied : Entries Value) (argument : ArgumentDefinition) :
    Value → Prop
  | supplied {value result : Value} (hlast : supplied.LastUnder argument.name value)
      (haccept : schema.accept argument.ty value = .ok result) :
      Binds schema supplied argument result
  | default {value : Value} (habsent : argument.name ∉ supplied.names)
      (hdefault : argument.default? = some value) : Binds schema supplied argument value
  | null (habsent : argument.name ∉ supplied.names) (hdefault : argument.default? = none)
      (hadmits : argument.ty.admitsNull = true) : Binds schema supplied argument .null

/-- Entries of arguments in their order, each with a value that its argument is bound to. -/
def BindsAll (schema : Schema) (supplied : Entries Value) (definitions : List ArgumentDefinition)
    (bound : Entries Value) : Prop :=
  List.Forall₂ (fun argument entry => entry.1 = argument.name ∧
    schema.Binds supplied argument entry.2) definitions bound

/-- What is supplied last for an argument is accepted, and if nothing is supplied, it has a default
or admits `null`. -/
def Bindable (schema : Schema) (supplied : Entries Value) (argument : ArgumentDefinition) : Prop :=
  (∀ value, supplied.LastUnder argument.name value →
    ∃ result, schema.accept argument.ty value = .ok result) ∧
  (argument.name ∉ supplied.names →
    argument.default?.isSome = true ∨ argument.ty.admitsNull = true)

variable {schema : Schema} {target : String} {supplied before after bound : Entries Value}
  {definitions : List ArgumentDefinition} {argument other : ArgumentDefinition}
  {value default converted : Value} {name : String}

/-- Binding an argument gives exactly the values that it is bound to. -/
theorem bindOne_eq_ok :
    schema.bindOne supplied argument = .ok value ↔ schema.Binds supplied argument value := by
  have hlast : ∀ value, supplied.reverse.lookup argument.name = some value ↔
      supplied.LastUnder argument.name value := fun _ => Entries.find?_reverse_eq_some_iff
  have habsent : supplied.reverse.lookup argument.name = none ↔ argument.name ∉ supplied.names :=
    Entries.find?_reverse_eq_none_iff
  unfold bindOne
  cases hfound : supplied.reverse.lookup argument.name with
  | some given =>
    have hname : argument.name ∈ supplied.names := ((hlast given).mp hfound).mem_names
    dsimp only
    constructor
    · intro h
      split at h
      · cases h
        exact .supplied ((hlast given).mp hfound) ‹_›
      · cases h
    · intro h
      cases h with
      | @supplied other _ hother haccept =>
        cases hfound.symm.trans ((hlast other).mpr hother)
        rw [haccept]
      | default hmem _ => exact absurd hname hmem
      | null hmem _ _ => exact absurd hname hmem
  | none =>
    have hname : argument.name ∉ supplied.names := habsent.mp hfound
    dsimp only
    constructor
    · intro h
      split at h
      · cases h
        exact .default hname ‹_›
      · split at h
        · cases h
          exact .null hname ‹_› ‹_›
        · cases h
    · intro h
      cases h with
      | supplied hother _ => cases hfound.symm.trans ((hlast _).mpr hother)
      | default _ hdefault => rw [hdefault]
      | null _ hdefault hadmits => rw [hdefault, if_pos hadmits]

/-- An argument is bound to a value or it cannot be bound. -/
theorem exists_binds_iff :
    (∃ value, schema.Binds supplied argument value) ↔ schema.Bindable supplied argument := by
  constructor
  · rintro ⟨value, h⟩
    cases h with
    | supplied hlast haccept =>
      refine ⟨fun other hother => ?_, fun habsent => absurd hlast.mem_names habsent⟩
      rw [← hlast.unique hother]
      exact ⟨value, haccept⟩
    | default habsent hdefault =>
      refine ⟨fun other hother => absurd hother.mem_names habsent, fun _ => .inl ?_⟩
      rw [hdefault, Option.isSome_some]
    | null habsent _ hadmits =>
      exact ⟨fun other hother => absurd hother.mem_names habsent, fun _ => .inr hadmits⟩
  · rintro ⟨hsupplied, hmissing⟩
    by_cases hmem : argument.name ∈ supplied.names
    · obtain ⟨value, hvalue⟩ := Entries.exists_lastUnder hmem
      obtain ⟨result, hresult⟩ := hsupplied value hvalue
      exact ⟨result, .supplied hvalue hresult⟩
    · cases hdefault : argument.default? with
      | some value => exact ⟨value, .default hmem hdefault⟩
      | none =>
        refine ⟨.null, .null hmem hdefault ((hmissing hmem).resolve_left ?_)⟩
        simp [hdefault]

/-- The first supplied value whose name is not declared. -/
def undeclared? (definitions : List ArgumentDefinition) (supplied : Entries Value) :
    Option (String × Value) :=
  List.find? (fun entry => !definitions.any fun argument => argument.name = entry.1) supplied

/-- An argument of a target with the value that it is bound to. -/
def bindEntry (schema : Schema) (target : String) (supplied : Entries Value)
    (argument : ArgumentDefinition) : Except CompileFault (String × Value) :=
  match schema.bindOne supplied argument with
  | .ok value => .ok (argument.name, value)
  | .error fault => .error (.argument target fault)

/-- Arguments are bound one by one, unless something is supplied that is not declared. -/
theorem bindArguments_eq : schema.bindArguments target definitions supplied =
    match undeclared? definitions supplied with
    | some entry => .error (.argument target (.unknown entry.1))
    | none => do
      let bound ← definitions.mapM (schema.bindEntry target supplied)
      return Entries.ofList bound := by
  unfold bindArguments undeclared? bindEntry
  cases List.find? (fun entry => !definitions.any fun argument => argument.name = entry.1) supplied
  · rfl
  · rfl

/-- Nothing undeclared is supplied exactly if all names are declared. -/
theorem undeclared?_eq_none : undeclared? definitions supplied = none ↔
    ∀ name ∈ supplied.names, name ∈ definitions.map ArgumentDefinition.name := by
  simp [undeclared?, List.find?_eq_none, Entries.names]

/-- An argument is bound under its name to a value that it is bound to. -/
theorem bindEntry_eq_ok (target : String) {pair : String × Value} :
    schema.bindEntry target supplied argument = .ok pair ↔
      pair.1 = argument.name ∧ schema.Binds supplied argument pair.2 := by
  obtain ⟨name, value⟩ := pair
  rw [← bindOne_eq_ok]
  unfold bindEntry
  cases schema.bindOne supplied argument with
  | ok found => simp [eq_comm]
  | error fault => simp

/-- Arguments are bound if all supplied names are declared and each argument is bound by itself. -/
theorem bindArguments_eq_ok :
    schema.bindArguments target definitions supplied = .ok bound ↔
      (∀ name ∈ supplied.names, name ∈ definitions.map ArgumentDefinition.name) ∧
        ∃ pairs, schema.BindsAll supplied definitions pairs ∧ bound = Entries.ofList pairs := by
  unfold BindsAll
  simp only [← undeclared?_eq_none, ← bindEntry_eq_ok target, ← mapM_eq_ok]
  rw [bindArguments_eq]
  cases undeclared? definitions supplied with
  | some entry => exact ⟨nofun, fun h => nomatch h.1⟩
  | none =>
    cases definitions.mapM (schema.bindEntry target supplied) with
    | error fault => exact ⟨nofun, fun ⟨_, _, hpairs, _⟩ => nomatch hpairs⟩
    | ok pairs =>
      refine ⟨fun h => ?_, ?_⟩
      · cases h
        exact ⟨rfl, pairs, rfl, rfl⟩
      · rintro ⟨-, _, hpairs, rfl⟩
        cases hpairs
        rfl

/-- Arguments are bound under their names, in their order. -/
theorem BindsAll.names (h : schema.BindsAll supplied definitions bound) :
    bound.names = definitions.map ArgumentDefinition.name := by
  induction h with
  | nil => rfl
  | cons hfirst _ ih => exact congrArg₂ List.cons hfirst.1 ih

/-- The values of arguments are those that they are bound to, in their order. -/
theorem BindsAll.values (h : schema.BindsAll supplied definitions bound) :
    List.Forall₂ (schema.Binds supplied) definitions bound.values :=
  List.forall₂_map_right_iff.mpr (h.imp fun _ _ hpair => hpair.2)

/-- Each of some arguments is bound by itself if every one of them can be bound. -/
theorem exists_bindsAll_iff : (∃ bound, schema.BindsAll supplied definitions bound) ↔
    ∀ argument ∈ definitions, schema.Bindable supplied argument := by
  simp only [BindsAll, exists_forall₂_iff, Prod.exists, exists_and_left, exists_eq_left,
    exists_binds_iff]

/-- Of arguments with different names, each is bound under its name in the order of declaration. -/
theorem bindArguments_eq_ok_of_nodup
    (hdistinct : (definitions.map ArgumentDefinition.name).Nodup) :
    schema.bindArguments target definitions supplied = .ok bound ↔
      (∀ name ∈ supplied.names, name ∈ definitions.map ArgumentDefinition.name) ∧
        schema.BindsAll supplied definitions bound := by
  have hnames : ∀ pairs, schema.BindsAll supplied definitions pairs →
      Entries.ofList pairs = pairs := fun pairs hpairs =>
    Entries.ofList_of_nodup (hpairs.names.symm ▸ hdistinct)
  rw [bindArguments_eq_ok]
  refine and_congr_right fun _ => ⟨?_, fun h => ⟨bound, h, (hnames bound h).symm⟩⟩
  rintro ⟨pairs, hpairs, rfl⟩
  rwa [hnames pairs hpairs]

/-- Binding arguments with different names succeeds exactly if every supplied name is declared and
every argument can be bound. Then the bound names are the declared ones in their order, each with
the value that it binds. What is accepted at a plain type is in the normal form of the type, and is
accepted again as it is. -/
theorem binds_exactly (schema : Schema) (target : String)
    (hdistinct : (definitions.map ArgumentDefinition.name).Nodup) (supplied : Entries Value) :
    ((∃ bound, schema.bindArguments target definitions supplied = .ok bound) ↔
      (∀ name ∈ supplied.names, name ∈ definitions.map ArgumentDefinition.name) ∧
        ∀ argument ∈ definitions, schema.Bindable supplied argument) ∧
    (∀ bound, schema.bindArguments target definitions supplied = .ok bound →
      bound.names = definitions.map ArgumentDefinition.name ∧
        List.Forall₂ (schema.Binds supplied) definitions bound.values) ∧
    ∀ ty value result, ty.isPlain = true → schema.accept ty value = .ok result →
      schema.Normal result ty ∧ schema.accept ty result = .ok result := by
  refine ⟨?_, fun bound hbound => ?_, fun ty value result hplain haccept => ?_⟩
  · simp only [bindArguments_eq_ok_of_nodup hdistinct, exists_and_left, exists_bindsAll_iff]
  · obtain ⟨-, hpairs⟩ := (bindArguments_eq_ok_of_nodup hdistinct).mp hbound
    exact ⟨hpairs.names, hpairs.values⟩
  · have hnormal := normal_of_accept ty value result hplain haccept
    exact ⟨hnormal, accept_of_normal hnormal⟩

/-- A schema with an enumeration of colors. -/
def paletteSchema : Schema := .ofParts "Query" [⟨"Color", [("Red", 0), ("Green", 1)]⟩] [] []

/-- Arguments with defaults, of which the one of the rate is no decimal, and one without. -/
def paletteArguments : List ArgumentDefinition :=
  [⟨"color", .enum "Color", none⟩, ⟨"rate", .decimal, some (.int 5)⟩,
    ⟨"limit", .int .i16, some (.int 10)⟩, ⟨"sizes", .list (.nullable (.int .i16)), none⟩]

/-- Of two colors the last one counts, supplied out of order and by its number. -/
def paletteSupplied : Entries Value :=
  [("sizes", .list [.int 3, .null]), ("color", .text "Red"), ("color", .int 1)]

/-- The two colors and the defaults are bound, and a limit out of range is refused. -/
theorem binds_exactly_palette :
    (paletteArguments.map ArgumentDefinition.name).Nodup ∧
      (∀ argument ∈ paletteArguments, paletteSchema.Bindable paletteSupplied argument) ∧
      (∃ bound,
        paletteSchema.bindArguments "palette" paletteArguments paletteSupplied = .ok bound ∧
          bound.names = ["color", "rate", "limit", "sizes"] ∧
          List.Forall₂ (paletteSchema.Binds paletteSupplied) paletteArguments bound.values) ∧
      paletteSchema.accept (.enum "Color") (.int 1) = .ok (.enum "Color" (some "Green") 1) ∧
      paletteSchema.Normal (.enum "Color" (some "Green") 1) (.enum "Color") ∧
      ¬ ∃ bound, paletteSchema.bindArguments "palette" paletteArguments
        (paletteSupplied ++ [("limit", .int 70000)]) = .ok bound := by
  have hdistinct : (paletteArguments.map ArgumentDefinition.name).Nodup := by decide
  obtain ⟨hiff, hbound, hnormal⟩ :=
    binds_exactly paletteSchema "palette" hdistinct paletteSupplied
  refine ⟨hdistinct, (hiff.mp ⟨_, rfl⟩).2, ⟨_, rfl, hbound _ rfl⟩, rfl,
    (hnormal (.enum "Color") (.int 1) _ rfl rfl).1, fun hlarge => ?_⟩
  have hbindable :=
    ((binds_exactly paletteSchema "palette" hdistinct _).1.mp hlarge).2
      ⟨"limit", .int .i16, some (.int 10)⟩ (by simp [paletteArguments])
  obtain ⟨result, hresult⟩ := hbindable.1 (.int 70000) ⟨paletteSupplied, [], rfl, nofun⟩
  cases hresult

/-- A declared name changes nothing about what is not declared. -/
theorem undeclared?_append_cons (h : name ∈ definitions.map ArgumentDefinition.name) :
    undeclared? definitions (before ++ (name, value) :: after) =
      undeclared? definitions (before ++ after) := by
  have hdeclared : (definitions.any fun argument => argument.name = name) = true := by
    simpa using h
  unfold undeclared?
  rw [List.find?_append, List.find?_cons_of_neg (by simp [hdeclared]), List.find?_append]

/-- A value that is supplied for another argument does not matter. -/
theorem bindOne_append_cons_of_ne (h : argument.name ≠ name) :
    schema.bindOne (before ++ (name, value) :: after) argument =
      schema.bindOne (before ++ after) argument := by
  have hlookup : (before ++ (name, value) :: after).reverse.lookup argument.name =
      (before ++ after).reverse.lookup argument.name := by
    have hne : (argument.name == name) = false := beq_false_of_ne h
    simp [List.lookup_append, List.lookup_cons, hne]
  unfold bindOne
  rw [hlookup]

/-- An argument of which one value is supplied is bound to what the value is accepted as. -/
theorem bindOne_append_cons_self (habsent : argument.name ∉ Entries.names (before ++ after))
    (haccept : schema.accept argument.ty value = .ok converted) :
    schema.bindOne (before ++ (argument.name, value) :: after) argument = .ok converted := by
  have hafter : argument.name ∉ after.names := fun hmem => habsent <| by
    rw [Entries.names, List.map_append]
    exact List.mem_append_right _ hmem
  exact bindOne_eq_ok.mpr (.supplied ⟨before, after, rfl, hafter⟩ haccept)

/-- If supplying one value more changes what the arguments of its name are bound to, it changes just
the values under this name. -/
theorem bindArguments_append_cons {change : Value → Value}
    (hdeclared : name ∈ definitions.map ArgumentDefinition.name)
    (hchange : ∀ argument ∈ definitions, argument.name = name →
      schema.bindOne (before ++ (name, value) :: after) argument =
        (schema.bindOne (before ++ after) argument).map change) :
    schema.bindArguments target definitions (before ++ (name, value) :: after) =
      (schema.bindArguments target definitions (before ++ after)).map (List.map fun entry =>
        (entry.1, if entry.1 = name then change entry.2 else entry.2)) := by
  have hentries : ∀ argument ∈ definitions,
      schema.bindEntry target (before ++ (name, value) :: after) argument =
        (schema.bindEntry target (before ++ after) argument).map fun entry =>
          (entry.1, if entry.1 = name then change entry.2 else entry.2) := by
    intro argument hargument
    unfold bindEntry
    by_cases hname : argument.name = name
    · rw [hchange argument hargument hname]
      cases schema.bindOne (before ++ after) argument with
      | ok found => simp [Except.map, hname]
      | error fault => rfl
    · rw [bindOne_append_cons_of_ne hname]
      cases schema.bindOne (before ++ after) argument with
      | ok found => simp [Except.map, hname]
      | error fault => rfl
  rw [bindArguments_eq, bindArguments_eq, undeclared?_append_cons hdeclared,
    mapM_eq_map hentries]
  cases undeclared? definitions (before ++ after) with
  | some entry => rfl
  | none =>
    cases definitions.mapM (schema.bindEntry target (before ++ after)) with
    | error fault => rfl
    | ok pairs =>
      exact congrArg Except.ok (Entries.ofList_mapEntries
        (f := fun key found => if key = name then change found else found))

/-- Where every argument of a name binds one value, this is the value under the name. -/
theorem find?_bindArguments (hbound : schema.bindArguments target definitions supplied = .ok bound)
    (hdeclared : name ∈ definitions.map ArgumentDefinition.name)
    (hvalue : ∀ argument ∈ definitions, argument.name = name →
      schema.bindOne supplied argument = .ok value) :
    bound.find? name = some value := by
  obtain ⟨-, pairs, hpairs, rfl⟩ := bindArguments_eq_ok.mp hbound
  have hmem : name ∈ (Entries.ofList pairs).names :=
    Entries.mem_names_extend.mpr (.inr (hpairs.names ▸ hdeclared))
  obtain ⟨found, hfound⟩ :=
    Option.isSome_iff_exists.mp (Entries.contains_iff_mem_names.mpr hmem)
  obtain ⟨argument, hargument, hname, hbinds⟩ := Returns.exists_of_mem_of_forall₂ hpairs
    (Entries.mem_of_mem_ofList (Entries.mem_of_find? hfound))
  cases (hvalue argument hargument hname.symm).symm.trans (bindOne_eq_ok.mpr hbinds)
  exact hfound

/-- No name is bound twice. -/
theorem nodup_names_bindArguments
    (hbound : schema.bindArguments target definitions supplied = .ok bound) :
    bound.names.Nodup := by
  obtain ⟨-, pairs, -, rfl⟩ := bindArguments_eq_ok.mp hbound
  exact Entries.nodup_names_ofList pairs

/-- Where an argument that no other one shares its name with can be left out, supplying one value
for it changes just the value that is bound under its name. -/
theorem bindArguments_supplied (target : String) (hmem : argument ∈ definitions)
    (honly : ∀ other ∈ definitions, other.name = argument.name → other = argument)
    (habsent : argument.name ∉ Entries.names (before ++ after))
    (haccept : schema.accept argument.ty value = .ok converted)
    (homitted : schema.bindOne (before ++ after) argument = .ok default) :
    schema.bindArguments target definitions (before ++ (argument.name, value) :: after) =
      (schema.bindArguments target definitions (before ++ after)).map
        (·.insert argument.name converted) := by
  have hdeclared : argument.name ∈ definitions.map ArgumentDefinition.name :=
    List.mem_map_of_mem hmem
  have hchange : ∀ other ∈ definitions, other.name = argument.name →
      schema.bindOne (before ++ (argument.name, value) :: after) other =
        (schema.bindOne (before ++ after) other).map fun _ => converted := by
    intro other hother hname
    rw [honly other hother hname, bindOne_append_cons_self habsent haccept, homitted]
    rfl
  rw [bindArguments_append_cons hdeclared hchange]
  cases hbound : schema.bindArguments target definitions (before ++ after) with
  | error fault => rfl
  | ok bound =>
    have hfind : bound.find? argument.name = some default :=
      find?_bindArguments hbound hdeclared fun other hother hname =>
        (honly other hother hname).symm ▸ homitted
    have hname : argument.name ∈ bound.names :=
      Entries.contains_iff_mem_names.mp (Option.isSome_of_eq_some hfind)
    exact congrArg Except.ok
      (Entries.insert_eq_map (nodup_names_bindArguments hbound) hname).symm

/-- Supplying the default of an argument changes nothing where all arguments of its name have this
default in the form of their types. Of an argument whose name no other one has, it changes the bound
value from the default as it is declared to what the default is accepted as, and nothing else; so it
is the same as leaving the argument out exactly if the default is accepted as it is. -/
theorem bindArguments_default (schema : Schema) (target : String) (hmem : argument ∈ definitions)
    (hdefault : argument.default? = some default)
    (haccept : schema.accept argument.ty default = .ok converted)
    (habsent : argument.name ∉ Entries.names (before ++ after)) :
    ((∀ other ∈ definitions, other.name = argument.name →
        other.default? = some default ∧ schema.accept other.ty default = .ok default) →
      schema.bindArguments target definitions (before ++ (argument.name, default) :: after) =
        schema.bindArguments target definitions (before ++ after)) ∧
    ((∀ other ∈ definitions, other.name = argument.name → other = argument) →
      schema.bindArguments target definitions (before ++ (argument.name, default) :: after) =
          (schema.bindArguments target definitions (before ++ after)).map
            (·.insert argument.name converted) ∧
        ∀ bound, schema.bindArguments target definitions (before ++ after) = .ok bound →
          bound.find? argument.name = some default ∧
            (schema.bindArguments target definitions
                (before ++ (argument.name, default) :: after) = .ok bound ↔
              converted = default)) := by
  have hdeclared : argument.name ∈ definitions.map ArgumentDefinition.name :=
    List.mem_map_of_mem hmem
  constructor
  · intro hnormal
    have hsame : ∀ other ∈ definitions, other.name = argument.name →
        schema.bindOne (before ++ (argument.name, default) :: after) other =
          (schema.bindOne (before ++ after) other).map id := by
      intro other hother hname
      obtain ⟨hdefault, haccept⟩ := hnormal other hother hname
      rw [← hname] at habsent ⊢
      rw [bindOne_append_cons_self habsent haccept, bindOne_eq_ok.mpr (.default habsent hdefault)]
      rfl
    rw [bindArguments_append_cons hdeclared hsame]
    cases schema.bindArguments target definitions (before ++ after) with
    | error fault => rfl
    | ok bound => simp [Except.map]
  · intro honly
    have homitted : schema.bindOne (before ++ after) argument = .ok default :=
      bindOne_eq_ok.mpr (.default habsent hdefault)
    have hinsert := bindArguments_supplied target hmem honly habsent haccept homitted
    refine ⟨hinsert, fun bound hbound => ?_⟩
    have hfind : bound.find? argument.name = some default :=
      find?_bindArguments hbound hdeclared fun other hother hname =>
        (honly other hother hname).symm ▸ homitted
    rw [hinsert, hbound]
    exact ⟨hfind, (iff_of_eq (Except.ok.injEq _ _)).trans (Entries.insert_eq_self_iff hfind)⟩

/-- Supplying the default of the limit, an integer of its kind, changes nothing; supplying the one
of the rate binds a decimal in place of an integer. -/
theorem bindArguments_default_palette :
    paletteSchema.accept .decimal (.int 5) = .ok (.decimal (.ofInt64 5)) ∧
      paletteSchema.accept (.int .i16) (.int 10) = .ok (.int 10) ∧
      paletteSchema.bindArguments "palette" paletteArguments
          ([("color", .text "Green")] ++ ("limit", .int 10) :: []) =
        paletteSchema.bindArguments "palette" paletteArguments ([("color", .text "Green")] ++ []) ∧
      ∃ bound, paletteSchema.bindArguments "palette" paletteArguments
            ([("color", .text "Green")] ++ []) = .ok bound ∧
        paletteSchema.bindArguments "palette" paletteArguments
            ([("color", .text "Green")] ++ ("rate", .int 5) :: []) =
          .ok (bound.insert "rate" (.decimal (.ofInt64 5))) ∧
        paletteSchema.bindArguments "palette" paletteArguments
            ([("color", .text "Green")] ++ ("rate", .int 5) :: []) ≠ .ok bound := by
  have honly : ∀ argument ∈ paletteArguments, ∀ other ∈ paletteArguments,
      other.name = argument.name → other = argument := by
    simp [paletteArguments]
  have hlimit : ⟨"limit", .int .i16, some (.int 10)⟩ ∈ paletteArguments := by
    simp [paletteArguments]
  have hrate : ⟨"rate", .decimal, some (.int 5)⟩ ∈ paletteArguments := by
    simp [paletteArguments]
  have habsent : "rate" ∉ Entries.names ([("color", Value.text "Green")] ++ []) := by decide
  refine ⟨rfl, rfl, ?_, ?_⟩
  · refine (bindArguments_default paletteSchema "palette" hlimit rfl rfl (by decide)).1 ?_
    intro other hother hname
    rw [honly _ hlimit other hother hname]
    exact ⟨rfl, rfl⟩
  · obtain ⟨hinsert, hsame⟩ :=
      (bindArguments_default paletteSchema "palette" hrate rfl rfl habsent).2 (honly _ hrate)
    refine ⟨_, rfl, hinsert, fun h => ?_⟩
    cases (hsame _ rfl).2.mp h

end Schema

end TypedQuery
