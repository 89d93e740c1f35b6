import TypedQuery.Proofs.Plan.Adapting
import TypedQuery.Proofs.Plan.Grafting
import TypedQuery.Proofs.Value.Preservation

/-!
# Values of the kinds of types

A value agrees with a type when it is of the type's kind throughout. Unlike a value that conforms,
it may hold an integer of any size, so that lists of any length can be counted. The operations of
plans keep to the kinds, and on values of the kinds that they stand on they fail because of what
the data is, never because of its kind, apart from counts that are `null`.
-/

namespace TypedQuery

/-- The failures that come from what the data is. -/
def RunFault.isOfData : RunFault → Bool
  | divisionByZero | overflow _ | conversion _ _ => true
  | type _ | unbound _ | missingService _ | host _ => false

/-- A run gives a result with a property, or fails because of its data, or is refused because it
met a count that is `null`. -/
def Ends {α : Type} (met : Prop) (outcome : Except RunFault α) (post : α → Prop) : Prop :=
  match outcome with
  | .ok result => post result
  | .error fault => fault.isOfData = true ∨ fault = .type (.notCount Value.null.kind) ∧ met

namespace Ends

variable {α β : Type} {met : Prop} {post : α → Prop} {outcome : Except RunFault α}

/-- A run may end with a result that has the property. -/
theorem ok {result : α} (h : post result) : Ends met (.ok result) post := h

/-- A run that ends in one way ends in every weaker one. -/
theorem mono {strong : Prop} {weak : α → Prop} (h : Ends strong outcome post)
    (hmet : strong → met) (hpost : ∀ result, post result → weak result) :
    Ends met outcome weak := by
  cases outcome with
  | ok result => exact hpost result h
  | error fault => exact h.imp_right (And.imp_right hmet)

/-- A run whose failures all come from the data. -/
theorem of_returns (h : Returns outcome post)
    (hfaults : ∀ fault, outcome = .error fault → fault.isOfData = true) :
    Ends met outcome post := by
  cases outcome with
  | ok result => exact h result rfl
  | error fault => exact .inl (hfaults fault rfl)

/-- Runs one after another end as the second does on the results of the first. -/
theorem bind {first : Except RunFault α} {next : α → Except RunFault β} {p : α → Prop}
    {post : β → Prop} (hfirst : Ends met first p)
    (hnext : ∀ result, first = .ok result → p result → Ends met (next result) post) :
    Ends met (first >>= next) post := by
  cases first with
  | ok result => exact hnext result rfl hfirst
  | error fault => exact hfirst

/-- A list is run through to results with the property if each item is. -/
theorem mapM {f : α → Except RunFault β} {post : β → Prop} {items : List α}
    (h : ∀ item ∈ items, Ends met (f item) post) :
    Ends met (items.mapM f) fun results => ∀ result ∈ results, post result := by
  induction items with
  | nil => exact .ok nofun
  | cons item rest ih =>
    rw [List.mapM_cons]
    refine .bind (h item List.mem_cons_self) fun result _ hresult => ?_
    refine .bind (ih fun other hother => h other (List.mem_cons_of_mem _ hother))
      fun results _ hresults => .ok ?_
    exact List.forall_mem_cons.mpr ⟨hresult, hresults⟩

/-- A filter ends with items of the list and those that were kept before. -/
theorem filterAuxM {f : α → Except RunFault Bool} {items kept : List α}
    (h : ∀ item ∈ items, Ends met (f item) fun _ => True) :
    Ends met (items.filterAuxM f kept) fun results =>
      ∀ item ∈ results, item ∈ items ∨ item ∈ kept := by
  induction items generalizing kept with
  | nil => exact .ok fun item hitem => .inr hitem
  | cons item rest ih =>
    refine .bind (h item List.mem_cons_self) fun keep _ _ => ?_
    refine .mono (ih fun other hother => h other (List.mem_cons_of_mem _ hother)) id
      fun results hresults other hother => ?_
    rcases hresults other hother with hrest | hkept
    · exact .inl (List.mem_cons_of_mem _ hrest)
    · cases keep with
      | true =>
        rcases List.mem_cons.mp hkept with rfl | hkept
        · exact .inl List.mem_cons_self
        · exact .inr hkept
      | false => exact .inr hkept

/-- A filtered list has items of the list. -/
theorem filterM {f : α → Except RunFault Bool} {items : List α}
    (h : ∀ item ∈ items, Ends met (f item) fun _ => True) :
    Ends met (items.filterM f) fun results => ∀ item ∈ results, item ∈ items :=
  .bind (filterAuxM h) fun _ _ hresults => .ok fun item hitem =>
    (hresults item (List.mem_reverse.mp hitem)).resolve_right List.not_mem_nil

end Ends

/-- The type is neither dynamic nor that of floats, nullable or not. -/
def Ty.Definite (ty : Ty) : Prop :=
  ty.core ≠ .any ∧ ty.core ≠ .float

instance (ty : Ty) : Decidable ty.Definite :=
  inferInstanceAs (Decidable (ty.core ≠ .any ∧ ty.core ≠ .float))

namespace Value

/-- The value is of the kind of a type without `nullable`. -/
def HasKind (value : Value) : Ty → Prop
  | .any => True
  | .boolean => ∃ b, value = .boolean b
  | .int _ => value.isInteger = true
  | .float => ∃ x, value = .float x
  | .decimal => ∃ d, value = .decimal d
  | .string => ∃ s, value = .text s
  | .guid => ∃ g, value = .guid g
  | .dateTime => ∃ t, value = .dateTime t
  | .enum name => ∃ member? number, value = .enum name member? number
  | .object _ => ∃ label entries, value = .object label entries
  | .record fields => ∃ values, value = .record fields values
  | .list _ => ∃ items, value = .list items
  | .null | .nullable _ => False

/-- The value is of the kind of a type throughout, with integers of any size. -/
inductive Agrees (members : Members) : Value → Ty → Prop
  | null {ty : Ty} : Agrees members .null ty
  | any {value : Value} {ty : Ty} (h : ty.core = .any) : Agrees members value ty
  | scalar {value : Value} {ty : Ty} (hscalar : value.isScalar = true)
      (hkind : value.HasKind ty.core) : Agrees members value ty
  | list {items : List Value} {ty element : Ty} (h : ty.core = .list element)
      (hitems : ∀ item ∈ items, Agrees members item element) : Agrees members (.list items) ty
  | object {label type : String} {entries : List (String × Value)} {ty : Ty}
      (h : ty.core = .object type)
      (hmembers : ∀ host memberTy value, members type host memberTy →
        Entries.find? entries host = some value → Agrees members value memberTy) :
      Agrees members (.object label entries) ty
  | record {fields : Signature} {values : List Value} {ty : Ty} (h : ty.core = .record fields)
      (hlength : values.length = fields.length)
      (hvalues : ∀ (i : Nat) field value, fields[i]? = some field → values[i]? = some value →
        Agrees members value field.2) :
      Agrees members (.record fields values) ty

variable {members : Members} {met : Prop} {value left right : Value} {a b ty source : Ty}
variable {items : List Value}

/-- A value that conforms to a type agrees with it. -/
theorem Conforms.agrees (h : value.Conforms members ty) : value.Agrees members ty := by
  induction h with
  | null => exact .null
  | any h => exact .any h
  | list h _ ih => exact .list h ih
  | object h _ ih => exact .object h ih
  | record h hlength _ ih => exact .record h hlength ih
  | int h _ | uint h _ =>
    refine .scalar rfl ?_
    rw [h]
    exact rfl
  | enum h =>
    refine .scalar rfl ?_
    rw [h]
    exact ⟨_, _, rfl⟩
  | boolean h | float h | decimal h | text h | guid h | dateTime h =>
    refine .scalar rfl ?_
    rw [h]
    exact ⟨_, rfl⟩

namespace Agrees

/-- A value agrees with a type with `nullable` and without. -/
theorem of_core_eq (h : value.Agrees members a) (hcore : a.core = b.core) :
    value.Agrees members b := by
  cases h with
  | null => exact .null
  | any h => exact .any (hcore ▸ h)
  | scalar hscalar hkind => exact .scalar hscalar (hcore ▸ hkind)
  | list h hitems => exact .list (hcore ▸ h) hitems
  | object h hmembers => exact .object (hcore ▸ h) hmembers
  | record h hlength hvalues => exact .record (hcore ▸ h) hlength hvalues

/-- Apart from `null`, a value that agrees with a type is of its kind. -/
theorem null_or_kind {core : Ty} (h : value.Agrees members ty) (hcore : ty.core = core) :
    value = .null ∨ value.HasKind core := by
  subst hcore
  cases h with
  | null => exact .inl rfl
  | any h =>
    rw [h]
    exact .inr trivial
  | scalar _ hkind => exact .inr hkind
  | list h _ | record h _ _ =>
    rw [h]
    exact .inr ⟨_, rfl⟩
  | object h _ =>
    rw [h]
    exact .inr ⟨_, _, rfl⟩

/-- Booleans agree with their type. -/
theorem boolean (b : Bool) : (Value.boolean b).Agrees members .boolean :=
  .scalar rfl ⟨b, rfl⟩

/-- The items of a list agree with its element type. -/
theorem item {element : Ty} (h : (Value.list items).Agrees members (.list element)) :
    ∀ item ∈ items, item.Agrees members element := by
  cases h with
  | any h => cases h
  | scalar hscalar _ => cases hscalar
  | list h hitems =>
    cases h
    exact hitems

/-- A list of some of the items agrees with the type of the list. -/
theorem sublist {kept : List Value} (h : (Value.list items).Agrees members ty)
    (hkept : ∀ item ∈ kept, item ∈ items) : (Value.list kept).Agrees members ty := by
  cases h with
  | any h => exact .any h
  | scalar hscalar _ => cases hscalar
  | list h hitems => exact .list h fun item hitem => hitems item (hkept item hitem)

/-- What agrees with a list type is a list or `null`. -/
theorem sequence (h : value.Agrees members ty) (hty : ty.isSequence = true) :
    Ends met value.sequence fun items? =>
      (∃ items, items? = some items ∧ value = .list items) ∨ items? = none ∧ value = .null := by
  obtain ⟨element, rfl⟩ := Ty.eq_list_of_isSequence hty
  rcases h.null_or_kind rfl with rfl | ⟨items, rfl⟩
  · exact .ok (.inr ⟨rfl, rfl⟩)
  · exact .ok (.inl ⟨items, rfl, rfl⟩)

/-- A list is reduced to a value of the reduced type. -/
theorem reduced (h : (Value.list items).Agrees members source) (hlist : source.isSequence = true)
    (reduction : Reduction) :
    (reduction.apply items).Agrees members (Plan.reducedTy source reduction) := by
  obtain ⟨element, rfl⟩ := Ty.eq_list_of_isSequence hlist
  have hitem : ∀ item? : Option Value, (∀ item ∈ item?, item ∈ items) →
      (item?.getD .null).Agrees members element.orNull := by
    intro item? hmem
    cases item? with
    | none => exact .null
    | some item => exact (h.item item (hmem item rfl)).of_core_eq (Ty.core_orNull element).symm
  cases reduction with
  | count => exact .scalar rfl rfl
  | first => exact hitem items.head? fun item hitem => List.mem_of_mem_head? hitem
  | last => exact hitem items.getLast? fun item hitem => List.mem_of_getLast? hitem

end Agrees

/-- A record has the fields of its type. -/
theorem exists_fieldOf? {fields : Signature} {values : List Value} {name : String} {fieldTy : Ty}
    (hlength : values.length = fields.length) (hfield : fields.type? name = some fieldTy) :
    ∃ found, fieldOf? fields values name = some found := by
  have hmem : (name, fieldTy) ∈ fields := Entries.mem_of_find? hfield
  obtain ⟨index, hindex⟩ : ∃ index, fields.index? name = some index := by
    cases hindex : fields.index? name with
    | some index => exact ⟨index, rfl⟩
    | none =>
      have hnone := List.findIdx?_eq_none_iff.mp hindex (name, fieldTy) hmem
      simp at hnone
  obtain ⟨field, hat, -⟩ := exists_field_of_index? hindex
  have hless : index < values.length := hlength ▸ (List.getElem?_eq_some_iff.mp hat).1
  exact ⟨values[index], Option.bind_eq_some_iff.mpr
    ⟨index, hindex, List.getElem?_eq_getElem hless⟩⟩

/-- A member of a value whose type has it agrees with the type of the member. -/
theorem Agrees.readMember {name : String} (h : value.Agrees members source)
    (hdefinite : source.Definite) (hmember : source.HasMember members name ty) :
    Ends met (value.readMember name) fun result => result.Agrees members ty := by
  cases h with
  | null => exact .ok .null
  | any h => exact absurd h hdefinite.1
  | scalar hscalar hkind =>
    unfold Ty.HasMember at hmember
    rw [← Ty.core_underlying] at hkind
    split at hmember
    · rename_i hobject
      rw [hobject] at hkind
      obtain ⟨label, entries, rfl⟩ := hkind
      cases hscalar
    · rename_i hrecord
      rw [hrecord] at hkind
      obtain ⟨values, rfl⟩ := hkind
      cases hscalar
    · rename_i hany
      exact absurd (by rw [← Ty.core_underlying, hany]; rfl) hdefinite.1
    · cases hmember
  | list hlist hitems =>
    unfold Ty.HasMember at hmember
    rw [← Ty.core_underlying] at hlist
    split at hmember <;> rename_i hunderlying <;>
      first | (rw [hunderlying] at hlist; cases hlist) | cases hmember
  | object hobject hmembers =>
    refine .ok ?_
    cases hfind : Entries.find? _ name with
    | none => exact .null
    | some found => exact hmembers name ty found (hmember.of_object hobject) hfind
  | record hrecord hlength hvalues =>
    have hfield := hmember.of_record hrecord
    obtain ⟨found, hfound⟩ := exists_fieldOf? hlength hfield
    unfold Value.readMember
    dsimp only
    rw [hfound]
    refine .ok ?_
    obtain ⟨index, hindex, hat⟩ := Option.bind_eq_some_iff.mp hfound
    obtain ⟨field, hplace, hty⟩ := exists_field_of_index? hindex
    cases hfield.symm.trans hty
    exact hvalues index field found hplace hat

/-- Conversions fail because of the value that cannot be converted. -/
theorem isOfData_of_convertSome {target : Ty} {fault : RunFault}
    (h : value.convertSome target = .error fault) : fault.isOfData = true := by
  have horFault : ∀ {other : Ty} {result? : Option Value},
      convertSome.orFault value other result? = .error fault → fault.isOfData = true := by
    intro other result? hresult
    cases result? <;> cases hresult
    rfl
  rw [← convertSome_core] at h
  cases hcore : target.core with
  | nullable inner => exact absurd hcore (Ty.core_ne_nullable inner target)
  | decimal | float | string =>
    rw [hcore] at h
    exact horFault h
  | any | null =>
    rw [hcore] at h
    cases h
    try rfl
  | int kind =>
    rw [hcore] at h
    unfold convertSome at h
    split at h
    · cases h
      rfl
    · split at h <;> cases h
      rfl
  | guid | dateTime =>
    rw [hcore] at h
    unfold convertSome at h
    split at h
    · exact horFault h
    · cases h
    · cases h
      rfl
  | enum name =>
    rw [hcore] at h
    unfold convertSome at h
    split at h
    · cases h
    · split at h <;> cases h
      rfl
    · cases h
    · cases h
      rfl
  | boolean | list _ | object _ | record _ =>
    rw [hcore] at h
    unfold convertSome at h
    split at h <;> cases h
    rfl

/-- A conversion that is well typed gives values of the kind of its target. -/
theorem Agrees.convert (h : value.Agrees members source) (hconvert : source.ConvertsTo ty) :
    Ends met (value.convert ty) fun result => result.Agrees members ty := by
  unfold Value.convert
  split
  · exact .ok .null
  · rename_i hnull
    refine .of_returns ?_ fun fault => isOfData_of_convertSome
    rcases hconvert with hcore | rfl | hchecked | ⟨⟨name, hname⟩, hint⟩
    · have hresult : Returns (value.convertSome ty) fun result =>
          result = value ∨ result.Belongs members ty := convertSome_kept_or_belongs value ty
      refine hresult.mono ?_
      rintro result (rfl | hbelongs)
      · exact h.of_core_eq hcore
      · exact hbelongs.1.agrees
    · exact ((h.null_or_kind rfl).resolve_left hnull).elim
    · exact (convertSome_checked hchecked).mono fun result hresult => hresult.1.agrees
    · obtain ⟨kind, hkind⟩ := Ty.exists_core_of_intKind? hint
      have hinteger : value.isInteger = true := (h.null_or_kind hkind).resolve_left hnull
      have henum : ∀ number, (Value.enum name none number).Agrees members ty := by
        intro number
        refine .scalar rfl ?_
        rw [hname]
        exact ⟨none, number, rfl⟩
      rw [← convertSome_core, hname]
      unfold convertSome
      split
      · exact .ok (henum _)
      · split
        · exact .ok (henum _)
        · exact .error _
      · cases hinteger
      · exact .error _

/-- Arithmetic on decimals fails because of its operands. -/
theorem isOfData_of_decimalOperation {op : Operator} {x y : Decimal} {fault : RunFault}
    (h : decimalOperation op x y = .error fault) : fault.isOfData = true := by
  unfold decimalOperation at h
  extract_lets finish at h
  have hfinish : ∀ result, finish result = .error fault → fault.isOfData = true := by
    intro result hresult
    cases result <;> cases hresult
    rfl
  split at h
  · exact hfinish _ h
  · exact hfinish _ h
  · exact hfinish _ h
  · split at h
    · cases h
      rfl
    · exact hfinish _ h
  · split at h
    · cases h
      rfl
    · exact hfinish _ h
  · exact hfinish _ h
  · exact hfinish none h

/-- Arithmetic on integers other than powers fails because of its operands. -/
theorem isOfData_of_integerOperation {op : Operator} {x y : Int} {kind : IntKind} {fault : RunFault}
    (hop : op ≠ .power) (h : integerOperation op x y kind = .error fault) :
    fault.isOfData = true := by
  unfold integerOperation at h
  extract_lets finish at h
  have hfinish : ∀ result, finish result = .error fault → fault.isOfData = true := by
    intro result hresult
    unfold finish at hresult
    split at hresult <;> cases hresult
    rfl
  split at h
  · exact hfinish _ h
  · exact hfinish _ h
  · exact hfinish _ h
  · split at h
    · cases h
      rfl
    · exact hfinish _ h
  · split at h
    · cases h
      rfl
    · exact hfinish _ h
  · exact absurd rfl hop
  · exact hfinish none h

/-- Arithmetic on numbers that agree with a type gives a number of the type. -/
theorem Agrees.arithmetic {op : Operator} (hop : op ≠ .power) (hnumeric : ty.isNumeric = true)
    (hfloat : ty.core ≠ .float) (hl : left.Agrees members ty) (hr : right.Agrees members ty) :
    Ends met (Value.arithmetic op left right ty) fun result => result.Agrees members ty := by
  have hnull : ∀ other, Ends met (Value.arithmetic op other .null ty)
      fun result => result.Agrees members ty := by
    intro other
    cases other <;> exact .ok .null
  have hcore := Ty.core_underlying ty
  unfold Ty.isNumeric at hnumeric
  split at hnumeric
  · rename_i kind hty
    rw [hty] at hcore
    have hkind : ty.intKind? = some kind := by
      unfold Ty.intKind?
      rw [hty]
    rcases hl.null_or_kind hcore.symm with rfl | hleft
    · exact .ok .null
    · rcases hr.null_or_kind hcore.symm with rfl | hright
      · exact hnull _
      · obtain ⟨x, y, harithmetic⟩ := arithmetic_of_isInteger op ty hleft hright
        rw [harithmetic, hkind]
        refine .of_returns ((returns_integerOperation hop x y kind).mono ?_)
          fun fault => isOfData_of_integerOperation hop
        rintro result ⟨n, hn⟩
        exact (conforms_of_ofInt? hn hcore.symm).1.agrees
  · rename_i hty
    rw [hty] at hcore
    exact absurd hcore.symm hfloat
  · rename_i hty
    rw [hty] at hcore
    rcases hl.null_or_kind hcore.symm with rfl | ⟨x, rfl⟩
    · exact .ok .null
    · rcases hr.null_or_kind hcore.symm with rfl | ⟨y, rfl⟩
      · exact hnull _
      · refine .of_returns (Returns.mono (returns_decimalOperation op x y) ?_)
          fun fault => isOfData_of_decimalOperation
        rintro result ⟨d, rfl⟩
        exact (Conforms.decimal hcore.symm).agrees
  · cases hnumeric

/-- Texts are joined to a text. -/
theorem Agrees.join (hty : ty.core = .string) (hl : left.Agrees members a)
    (hr : right.Agrees members b) (hleft : a.isString = true) (hright : b.isString = true) :
    Ends met (Value.arithmetic .add left right ty) fun result => result.Agrees members ty := by
  rcases hl.null_or_kind (Ty.core_of_isString hleft) with rfl | ⟨s, rfl⟩
  · exact .ok .null
  · rcases hr.null_or_kind (Ty.core_of_isString hright) with rfl | ⟨t, rfl⟩
    · exact .ok .null
    · exact .ok (Conforms.text hty).agrees

/-- Integers have an order. -/
theorem exists_compare_of_isInteger (hl : left.isInteger = true) (hr : right.isInteger = true) :
    ∃ order, Value.compare left right = some order := by
  cases left <;> cases hl <;> cases right <;> cases hr <;> exact ⟨_, rfl⟩

/-- Values of types that can be compared by order have an order, unless one is `null`. -/
theorem Agrees.exists_compare (hcompares : a.Compares b) (ha : a.Definite) (hb : b.Definite)
    (hl : left.Agrees members a) (hr : right.Agrees members b) (hleft : left ≠ .null)
    (hright : right ≠ .null) : ∃ order, Value.compare left right = some order := by
  have hkinds : ∀ {core core' : Ty}, a.core = core → b.core = core' →
      left.HasKind core ∧ right.HasKind core' := fun hcore hcore' =>
    ⟨(hl.null_or_kind hcore).resolve_left hleft, (hr.null_or_kind hcore').resolve_left hright⟩
  rcases hcompares with rfl | rfl | ⟨hinteger, hinteger'⟩ | ⟨rfl, horderable⟩
  · exact absurd rfl ha.1
  · exact absurd rfl hb.1
  · obtain ⟨kind, hkind⟩ := Ty.exists_core_of_intKind? hinteger
    obtain ⟨kind', hkind'⟩ := Ty.exists_core_of_intKind? hinteger'
    obtain ⟨hx, hy⟩ := hkinds hkind hkind'
    exact exists_compare_of_isInteger hx hy
  · have hcore := (Ty.core_underlying a).symm
    unfold Ty.isOrderable at horderable
    split at horderable <;> rename_i hty <;> try rw [hty] at hcore
    · obtain ⟨hx, hy⟩ := hkinds hcore hcore
      exact exists_compare_of_isInteger hx hy
    · exact absurd hcore ha.2
    · obtain ⟨⟨x, rfl⟩, ⟨y, rfl⟩⟩ := hkinds hcore hcore
      exact ⟨_, rfl⟩
    · obtain ⟨⟨x, rfl⟩, ⟨y, rfl⟩⟩ := hkinds hcore hcore
      exact ⟨_, rfl⟩
    · obtain ⟨⟨x, rfl⟩, ⟨y, rfl⟩⟩ := hkinds hcore hcore
      exact ⟨_, rfl⟩
    · obtain ⟨⟨x, rfl⟩, ⟨y, rfl⟩⟩ := hkinds hcore hcore
      exact ⟨_, rfl⟩
    · obtain ⟨⟨x?, x, rfl⟩, ⟨y?, y, rfl⟩⟩ := hkinds hcore hcore
      exact ⟨_, if_pos rfl⟩
    · obtain ⟨⟨x, rfl⟩, ⟨y, rfl⟩⟩ := hkinds hcore hcore
      exact ⟨_, rfl⟩
    · exact absurd hcore ha.1
    · cases horderable

end Value

end TypedQuery
