import TypedQuery.Plan.Eval
import TypedQuery.Proofs.Computation
import TypedQuery.Proofs.Plan.Typing

/-!
# Operations on values keep types

What an operation of a plan gives belongs to the type of its node if the operands belong to
theirs. Arithmetic stays within the kind of the result, conversions give values of their
target, and lists are only cut, sorted or mapped. A negative power of integers is a decimal,
so powers are left out.
-/

namespace TypedQuery

namespace Value

variable {members : Members} {value result left right : Value} {ty : Ty} {items : List Value}

/-- The value conforms to a type, and an `Int32` can count each of its lists. -/
def Belongs (members : Members) (value : Value) (ty : Ty) : Prop :=
  value.Conforms members ty ∧ value.Short

/-- The value `null` belongs to every type. -/
theorem Belongs.null : Value.null.Belongs members ty :=
  ⟨.null, .scalar rfl⟩

/-- Booleans belong to their type. -/
theorem Belongs.boolean (b : Bool) : (Value.boolean b).Belongs members .boolean :=
  ⟨.boolean rfl, .scalar rfl⟩

/-- What belongs to a type belongs to it with `nullable` and without. -/
theorem Belongs.of_core_eq {other : Ty} (h : value.Belongs members ty)
    (hcore : ty.core = other.core) :
    value.Belongs members other :=
  ⟨h.1.of_core_eq hcore, h.2⟩

/-- The items of a list belong to a type as far as the list does. -/
theorem Conforms.sublist {kept : List Value} (h : (Value.list items).Conforms members ty)
    (hkept : ∀ item ∈ kept, item ∈ items) : (Value.list kept).Conforms members ty := by
  cases h with
  | any h => exact .any h
  | list h hitems => exact .list h fun item hitem => hitems item (hkept item hitem)

/-- Some of the items of a list, and no more of them, belong to its type. -/
theorem Belongs.sublist {kept : List Value} (h : (Value.list items).Belongs members ty)
    (hlength : kept.length ≤ items.length) (hkept : ∀ item ∈ kept, item ∈ items) :
    (Value.list kept).Belongs members ty :=
  ⟨h.1.sublist hkept, h.2.of_sublist hlength hkept⟩

/-- The items of a list belong to the type of its elements. -/
theorem Belongs.item {element : Ty} (h : (Value.list items).Belongs members (.list element)) :
    ∀ item ∈ items, item.Belongs members element :=
  fun item hitem => ⟨h.1.item item hitem, h.2.item.2 item hitem⟩

/-- A list that can be counted belongs to its type if its items do. -/
theorem Belongs.list {element : Ty} (hlength : items.length < countLimit)
    (h : ∀ item ∈ items, item.Belongs members element) :
    (Value.list items).Belongs members (.list element) :=
  ⟨.list rfl fun item hitem => (h item hitem).1, .list hlength fun item hitem => (h item hitem).2⟩

/-- Only lists and `null` are taken for sequences. -/
theorem eq_of_sequence {items? : Option (List Value)} (h : value.sequence = .ok items?) :
    (∃ items, items? = some items ∧ value = .list items) ∨ items? = none ∧ value = .null := by
  cases value <;> cases h
  · exact Or.inr ⟨rfl, rfl⟩
  · exact Or.inl ⟨_, rfl, rfl⟩

/-- Keeping the first of equal items leaves items of the list, and no more of them. -/
theorem distinctItems_subset (items : List Value) :
    (distinctItems items).length ≤ items.length ∧ ∀ item ∈ distinctItems items, item ∈ items := by
  have hfold : ∀ items kept : List Value,
      let result := items.foldl
        (fun kept item => if kept.any (same · item) then kept else kept ++ [item]) kept
      result.length ≤ kept.length + items.length ∧ ∀ item ∈ result, item ∈ kept ∨ item ∈ items := by
    intro items
    induction items with
    | nil => exact fun kept => ⟨Nat.le_refl _, fun _ h => Or.inl h⟩
    | cons item rest ih =>
      intro kept
      rw [List.foldl_cons]
      obtain ⟨hlength, hmem⟩ := ih (if kept.any (same · item) then kept else kept ++ [item])
      refine ⟨Nat.le_trans hlength ?_, fun other hother => ?_⟩
      · rw [List.length_cons]
        split
        · omega
        · rw [List.length_append, List.length_singleton]
          omega
      · rcases hmem other hother with h | h
        · split at h
          · exact Or.inl h
          · rcases List.mem_append.mp h with h | h
            · exact Or.inl h
            · exact Or.inr (List.mem_singleton.mp h ▸ List.mem_cons_self)
        · exact Or.inr (List.mem_cons_of_mem _ h)
  obtain ⟨hlength, hmem⟩ := hfold items []
  rw [List.length_nil, Nat.zero_add] at hlength
  exact ⟨hlength, fun item hitem => (hmem item hitem).resolve_left List.not_mem_nil⟩

/-- Inserting an item by its key adds this item. -/
theorem insertKeyed_perm (precedes : Value → Value → Bool) (item : Value × Value)
    (sorted : List (Value × Value)) : (insertKeyed precedes item sorted).Perm (item :: sorted) := by
  induction sorted with
  | nil => exact .refl _
  | cons last rest ih =>
    unfold insertKeyed
    split
    · exact (ih.cons last).trans (.swap item last rest)
    · exact .refl _

/-- Sorting by keys rearranges the items. -/
theorem sortKeyed_perm (descending : Bool) (keyed : List (Value × Value)) :
    (sortKeyed descending keyed).Perm (keyed.map Prod.snd) := by
  have hfold : ∀ keyed sorted : List (Value × Value),
      (keyed.foldl (fun sorted item => insertKeyed (precedes descending) item sorted) sorted).Perm
        (keyed ++ sorted) := by
    intro keyed
    induction keyed with
    | nil => exact fun sorted => .refl _
    | cons item rest ih =>
      intro sorted
      refine (ih _).trans (((insertKeyed_perm _ _ _).append_left rest).trans ?_)
      exact List.perm_middle
  have h := hfold keyed []
  rw [List.append_nil] at h
  exact ((List.reverse_perm _).trans h).map Prod.snd

/-- The number of items of a list that an `Int32` can count. -/
theorem conforms_count (h : items.length < countLimit) :
    (Value.int (Int64.ofNat items.length)).Conforms members (.int .i32) := by
  have hlength : items.length < 2 ^ 31 := h
  refine .int rfl (IntKind.fits_iff.mpr ?_)
  rw [Int64.toInt_ofNat_of_lt (by omega)]
  change -(2 ^ 31 : Int) ≤ items.length ∧ (items.length : Int) ≤ 2 ^ 31 - 1
  omega

/-- A list is reduced to a value of the reduced type. -/
theorem Belongs.reduced {source : Ty} (h : (Value.list items).Belongs members source)
    (reduction : Reduction) :
    (reduction.apply items).Belongs members (Plan.reducedTy source reduction) := by
  have hshort : ∀ item ∈ items, item.Short := h.2.item.2
  have hitem : ∀ item? : Option Value, (∀ item ∈ item?, item ∈ items) →
      (item?.getD .null).Belongs members (Plan.reducedTy source .first) := by
    intro item? hmem
    cases item? with
    | none => exact .null
    | some item =>
      refine ⟨?_, hshort item (hmem item rfl)⟩
      unfold Plan.reducedTy
      dsimp only
      split
      · rename_i element helement
        have hlist := Ty.eq_list_of_element? helement
        subst hlist
        exact (h.1.item item (hmem item rfl)).of_core_eq (Ty.core_orNull element).symm
      · exact .any rfl
  cases reduction with
  | count => exact ⟨conforms_count h.2.item.1, .scalar rfl⟩
  | first => exact hitem items.head? fun item hitem => List.mem_of_mem_head? hitem
  | last => exact hitem items.getLast? fun item hitem => List.mem_of_getLast? hitem

/-- The place of a field of a record holds a value of the field's type. -/
theorem exists_field_of_index? {fields : Signature} {name : String} {index : Nat}
    (h : fields.index? name = some index) :
    ∃ field, fields[index]? = some field ∧ fields.type? name = some field.2 := by
  induction fields generalizing index with
  | nil => cases h
  | cons field rest ih =>
    unfold Signature.index? at h
    rw [List.findIdx?_cons] at h
    by_cases hname : field.1 = name
    · rw [if_pos (by simpa using hname)] at h
      cases h
      refine ⟨field, rfl, ?_⟩
      unfold Signature.type?
      rw [← hname]
      exact List.lookup_cons_self
    · rw [if_neg (by simpa using hname)] at h
      obtain ⟨place, hplace, rfl⟩ := Option.map_eq_some_iff.mp h
      obtain ⟨found, hfound, hty⟩ := ih hplace
      refine ⟨found, by simpa using hfound, ?_⟩
      unfold Signature.type? at hty ⊢
      rw [List.lookup_cons, beq_false_of_ne (Ne.symm hname)]
      exact hty

/-- Keys are paired with the items from which they are computed. -/
theorem map_snd_of_keyed {body : Value → Except RunFault Value} {keyed : List (Value × Value)}
    (h : List.Forall₂ (fun item pair => (do return (← body item, item)) =
      (.ok pair : Except RunFault (Value × Value))) items keyed) : keyed.map Prod.snd = items := by
  induction h with
  | nil => rfl
  | @cons item pair _ _ hpair _ ih =>
    rw [List.map_cons, ih]
    cases hrun : body item with
    | error fault =>
      rw [hrun] at hpair
      cases hpair
    | ok key =>
      rw [hrun] at hpair
      cases hpair
      rfl

/-- A member of an object belongs to the type that the type of the object gives it. -/
theorem Belongs.member {label name : String} {entries : List (String × Value)} {object : Ty}
    {found : Value} (h : (Value.object label entries).Belongs members object)
    (hmember : object.HasMember members name ty) (hfind : Entries.find? entries name = some found) :
    found.Belongs members ty := by
  refine ⟨?_, ?_⟩
  · cases h.1 with
    | any hany =>
      rw [hmember.of_any hany]
      exact .any rfl
    | object hobject hmembers => exact hmembers name ty found (hmember.of_object hobject) hfind
  · cases h.2 with
    | scalar hscalar => cases hscalar
    | object hvalues => exact hvalues _ (Entries.mem_of_find? hfind)

/-- A field of a record belongs to the type that the type of the record gives it. -/
theorem Belongs.field {name : String} {fields : Signature} {values : List Value} {object : Ty}
    {found : Value} (h : (Value.record fields values).Belongs members object)
    (hmember : object.HasMember members name ty)
    (hfound : fieldOf? fields values name = some found) :
    found.Belongs members ty := by
  obtain ⟨index, hindex, hvalue⟩ := Option.bind_eq_some_iff.mp hfound
  refine ⟨?_, ?_⟩
  · cases h.1 with
    | any hany =>
      rw [hmember.of_any hany]
      exact .any rfl
    | record hrecord _ hvalues =>
      obtain ⟨field, hfield, hty⟩ := exists_field_of_index? hindex
      cases (hmember.of_record hrecord).symm.trans hty
      exact hvalues index field found hfield hvalue
  · cases h.2 with
    | scalar hscalar => cases hscalar
    | record hvalues => exact hvalues _ (List.mem_of_getElem? hvalue)

/-- A member that is read belongs to its type. -/
theorem Belongs.readMember {name : String} {object : Ty} (h : value.Belongs members object)
    (hmember : object.HasMember members name ty) :
    Returns (value.readMember name) fun result => result.Belongs members ty := by
  unfold Value.readMember
  split
  · exact .ok .null
  · rename_i label entries
    cases hfind : Entries.find? entries name with
    | none => exact .ok .null
    | some found => exact .ok (h.member hmember hfind)
  · split
    · exact .ok (h.field hmember ‹_›)
    · exact .error _
  · exact .error _

/-- A scalar that conforms to a type belongs to it. -/
theorem Belongs.scalar (hscalar : result.isScalar = true) (h : result.Conforms members ty) :
    result.Belongs members ty :=
  ⟨h, .scalar hscalar⟩

/-- A conversion that may be missing returns what it finds. -/
theorem returns_orFault {post : Value → Prop} {target : Ty} {result? : Option Value}
    (h : ∀ result, result? = some result → post result) :
    Returns (convertSome.orFault value target result?) post := by
  cases result? with
  | none => exact .error _
  | some result => exact .ok (h result rfl)

/-- Converting to a type takes no heed of `nullable`. -/
theorem convertSome_core (value : Value) : (target : Ty) →
    value.convertSome target.core = value.convertSome target
  | .nullable inner => by
    rw [Ty.core, convertSome_core value inner, convertSome]
  | .any | .null | .boolean | .int _ | .float | .decimal | .string | .guid | .dateTime | .enum _
  | .object _ | .record _ | .list _ => rfl

/-- Conversion to a scalar type gives values of the type. -/
theorem convertSome_checked {target : Ty} (htarget : target.core.isChecked = true) :
    Returns (value.convertSome target) fun result => result.Belongs members target := by
  rw [← convertSome_core]
  cases hcore : target.core with
  | int kind =>
    unfold convertSome
    split
    · exact .error _
    · split
      · rename_i result hresult
        have hvalue : result.Conforms members target ∧ result.isScalar = true :=
          conforms_of_ofInt? hresult hcore
        exact .ok (.scalar hvalue.2 hvalue.1)
      · exact .error _
  | decimal =>
    refine returns_orFault fun result h => ?_
    obtain ⟨d, _, rfl⟩ := Option.map_eq_some_iff.mp h
    exact .scalar rfl (.decimal hcore)
  | float =>
    refine returns_orFault fun result h => ?_
    obtain ⟨x, _, rfl⟩ := Option.map_eq_some_iff.mp h
    exact .scalar rfl (.float hcore)
  | string =>
    refine returns_orFault fun result h => ?_
    obtain ⟨s, _, rfl⟩ := Option.map_eq_some_iff.mp h
    exact .scalar rfl (.text hcore)
  | guid =>
    unfold convertSome
    split
    · refine returns_orFault fun result h => ?_
      obtain ⟨g, _, rfl⟩ := Option.map_eq_some_iff.mp h
      exact .scalar rfl (.guid hcore)
    · exact .ok (.scalar rfl (.guid hcore))
    · exact .error _
  | dateTime =>
    unfold convertSome
    split
    · refine returns_orFault fun result h => ?_
      obtain ⟨t, _, rfl⟩ := Option.map_eq_some_iff.mp h
      exact .scalar rfl (.dateTime hcore)
    · exact .ok (.scalar rfl (.dateTime hcore))
    · exact .error _
  | boolean =>
    unfold convertSome
    split
    · exact .ok (.scalar rfl (.boolean hcore))
    · exact .error _
  | any | null | enum _ | object _ | record _ | list _ | nullable _ =>
    rw [hcore] at htarget
    cases htarget

/-- A conversion keeps the value or gives one of the target. -/
theorem convertSome_kept_or_belongs (value : Value) (target : Ty) :
    Returns (value.convertSome target) fun result =>
      result = value ∨ result.Belongs members target := by
  cases hchecked : target.core.isChecked with
  | true => exact (convertSome_checked hchecked).mono fun result hresult => .inr hresult
  | false =>
    rw [← convertSome_core]
    cases htarget : target.core with
    | any =>
      unfold convertSome
      exact .ok (.inl rfl)
    | list _ | object _ | record _ =>
      unfold convertSome
      split
      · exact .ok (.inl rfl)
      · exact .error _
    | enum name =>
      unfold convertSome
      split
      · exact .ok (.inr (.scalar rfl (.enum htarget)))
      · split
        · exact .ok (.inr (.scalar rfl (.enum htarget)))
        · exact .error _
      · exact .ok (.inl rfl)
      · exact .error _
    | null => exact .error _
    | nullable inner => exact absurd htarget (Ty.core_ne_nullable inner target)
    | boolean | int _ | float | decimal | string | guid | dateTime =>
      rw [htarget] at hchecked
      cases hchecked

/-- Conversion to a type that is the same but for `nullable` keeps the type. -/
theorem convertSome_of_core_eq {source target : Ty} (h : value.Belongs members source)
    (hcore : source.core = target.core) :
    Returns (value.convertSome target) fun result => result.Belongs members target := by
  have hresult : Returns (value.convertSome target) fun result =>
      result = value ∨ result.Belongs members target := convertSome_kept_or_belongs value target
  refine hresult.mono ?_
  rintro result (rfl | hbelongs)
  · exact h.of_core_eq hcore
  · exact hbelongs

/-- An integer becomes a value of an enumeration. -/
theorem convertSome_enum {source target : Ty} {name : String} (h : value.Belongs members source)
    (hint : source.intKind?.isSome = true) (htarget : target.core = .enum name) :
    Returns (value.convertSome target) fun result => result.Belongs members target := by
  rw [← convertSome_core, htarget]
  unfold convertSome
  split
  · exact .ok (.scalar rfl (.enum htarget))
  · split
    · exact .ok (.scalar rfl (.enum htarget))
    · exact .error _
  · obtain ⟨kind, hkind⟩ := Ty.exists_core_of_intKind? hint
    cases h.1 with
    | any hany => cases hkind.symm.trans hany
    | enum henum => cases hkind.symm.trans henum
  · exact .error _

/-- A conversion that is well typed gives values of its target. -/
theorem Belongs.convert {source target : Ty} (h : value.Belongs members source)
    (hconvert : source.ConvertsTo target) :
    Returns (value.convert target) fun result => result.Belongs members target := by
  unfold Value.convert
  split
  · exact .ok .null
  · rename_i hnull
    rcases hconvert with hcore | rfl | hchecked | ⟨⟨name, hname⟩, hint⟩
    · exact convertSome_of_core_eq h hcore
    · exact absurd h.1.eq_null hnull
    · exact convertSome_checked hchecked
    · exact convertSome_enum h hint hname

/-- The value is one of the numbers or texts of a type without `nullable`. -/
def Holds (value : Value) : Ty → Prop
  | .int _ => value.isInteger = true
  | .float => ∃ x, value = .float x
  | .decimal => ∃ d, value = .decimal d
  | .string => ∃ s, value = .text s
  | _ => True

/-- Only `null` conforms to a type of numbers or texts besides the numbers or texts themselves. -/
theorem Conforms.null_or_holds {core : Ty} (h : value.Conforms members ty)
    (hcore : ty.core = core) : value = .null ∨ value.Holds core := by
  subst hcore
  cases h with
  | null => exact Or.inl rfl
  | int h _ | uint h _ =>
    rw [h]
    exact Or.inr rfl
  | float h | decimal h | text h =>
    rw [h]
    exact Or.inr ⟨_, rfl⟩
  | any h | boolean h | guid h | dateTime h | enum h | list h _ | object h _ | record h _ _ =>
    rw [h]
    exact Or.inr trivial

/-- An operator on decimals gives a decimal. -/
theorem returns_decimalOperation (op : Operator) (a b : Decimal) :
    Returns (decimalOperation op a b) fun result => ∃ d, result = .decimal d := by
  unfold decimalOperation
  extract_lets finish
  have hfinish : ∀ result, Returns (finish result) fun result => ∃ d, result = .decimal d := by
    intro result
    cases result with
    | none => exact .error _
    | some d => exact .ok ⟨_, rfl⟩
  split
  · exact hfinish _
  · exact hfinish _
  · exact hfinish _
  · split
    · exact .error _
    · exact hfinish _
  · split
    · exact .error _
    · exact hfinish _
  · exact hfinish _
  · exact hfinish none

/-- An operator on integers gives an integer of the kind, unless it is a power. -/
theorem returns_integerOperation {op : Operator} (hop : op ≠ .power) (a b : Int) (kind : IntKind) :
    Returns (integerOperation op a b kind) fun result => ∃ n, ofInt? n kind = some result := by
  unfold integerOperation
  extract_lets finish
  have hfinish : ∀ result, Returns (finish result)
      fun result => ∃ n, ofInt? n kind = some result := by
    intro result
    unfold finish
    split
    · obtain ⟨n, _, hn⟩ := Option.bind_eq_some_iff.mp ‹_›
      exact .ok ⟨n, hn⟩
    · exact .error _
  split
  · exact hfinish _
  · exact hfinish _
  · exact hfinish _
  · split
    · exact .error _
    · exact hfinish _
  · split
    · exact .error _
    · exact hfinish _
  · exact absurd rfl hop
  · exact hfinish none

/-- Arithmetic on any two values gives a scalar. -/
theorem returns_arithmetic_scalar {op : Operator} (hop : op ≠ .power) (a b : Value) (ty : Ty) :
    Returns (arithmetic op a b ty) fun result => result.isScalar = true := by
  have hinteger : ∀ x y kind, Returns (integerOperation op x y kind)
      fun result => result.isScalar = true := by
    intro x y kind
    refine (returns_integerOperation hop x y kind).mono ?_
    rintro result ⟨n, hn⟩
    have hresult : result.Conforms (fun _ _ _ => True) (.int kind) ∧ result.isScalar = true :=
      conforms_of_ofInt? hn rfl
    exact hresult.2
  have hdecimal : ∀ x y, Returns (decimalOperation op x y)
      fun result => result.isScalar = true := by
    intro x y
    refine (returns_decimalOperation op x y).mono ?_
    rintro result ⟨d, rfl⟩
    rfl
  have hoperate : Returns (operate op a b ty) fun result => result.isScalar = true := by
    unfold operate
    dsimp only
    split
    · split
      · exact hinteger _ _ _
      · exact .error _
    · split
      · split
        · exact .ok rfl
        · exact .error _
      · split
        · exact hdecimal _ _
        · exact .error _
  unfold arithmetic
  split
  · exact .ok rfl
  · exact .ok rfl
  · split
    · exact .ok rfl
    · exact hoperate
  · exact hoperate

/-- Arithmetic on integers is that of their numbers, at the kind of the result. -/
theorem arithmetic_of_isInteger (op : Operator) {a b : Value} (ty : Ty) (ha : a.isInteger = true)
    (hb : b.isInteger = true) :
    ∃ x y, Value.arithmetic op a b ty = integerOperation op x y (ty.intKind?.getD .i64) := by
  cases a <;> cases ha <;> cases b <;> cases hb <;> exact ⟨_, _, rfl⟩

/-- Arithmetic on two numbers of a type gives a number of the type, unless it is a power. -/
theorem Conforms.arithmetic {op : Operator} (hop : op ≠ .power) (hnumeric : ty.isNumeric = true)
    (hl : left.Conforms members ty) (hr : right.Conforms members ty) :
    Returns (Value.arithmetic op left right ty) fun result => result.Conforms members ty := by
  have hnull : ∀ other, Returns (Value.arithmetic op .null other ty)
      fun result => result.Conforms members ty := fun _ => .ok .null
  have hnull' : ∀ other, Returns (Value.arithmetic op other .null ty)
      fun result => result.Conforms members ty := by
    intro other
    cases other <;> exact .ok .null
  have hcore := Ty.core_underlying ty
  unfold Ty.isNumeric at hnumeric
  split at hnumeric
  · rename_i kind hty
    rw [hty] at hcore
    have hkind : ty.intKind? = some kind := by
      unfold Ty.intKind?
      rw [hty]
    rcases hl.null_or_holds hcore.symm with rfl | hleft
    · exact hnull _
    · rcases hr.null_or_holds hcore.symm with rfl | hright
      · exact hnull' _
      · obtain ⟨x, y, harithmetic⟩ := arithmetic_of_isInteger op ty hleft hright
        rw [harithmetic, hkind]
        refine (returns_integerOperation hop x y kind).mono ?_
        rintro result ⟨n, hn⟩
        exact (conforms_of_ofInt? hn hcore.symm).1
  · rename_i hty
    rw [hty] at hcore
    rcases hl.null_or_holds hcore.symm with rfl | ⟨x, rfl⟩
    · exact hnull _
    · rcases hr.null_or_holds hcore.symm with rfl | ⟨y, rfl⟩
      · exact hnull' _
      · exact .ok (.float hcore.symm)
  · rename_i hty
    rw [hty] at hcore
    rcases hl.null_or_holds hcore.symm with rfl | ⟨x, rfl⟩
    · exact hnull _
    · rcases hr.null_or_holds hcore.symm with rfl | ⟨y, rfl⟩
      · exact hnull' _
      · refine Returns.mono (returns_decimalOperation op x y) ?_
        rintro result ⟨d, rfl⟩
        exact .decimal hcore.symm
  · cases hnumeric

/-- Two texts are joined to a text. -/
theorem Conforms.join {a b : Ty} (hty : ty.core = .string) (hl : left.Conforms members a)
    (hr : right.Conforms members b) (hleft : a.isString = true) (hright : b.isString = true) :
    Returns (Value.arithmetic .add left right ty) fun result => result.Conforms members ty := by
  rcases hl.null_or_holds (Ty.core_of_isString hleft) with rfl | ⟨s, rfl⟩
  · exact .ok .null
  · rcases hr.null_or_holds (Ty.core_of_isString hright) with rfl | ⟨t, rfl⟩
    · exact .ok .null
    · exact .ok (.text hty)

end Value

variable {members : Members} {left right operand result : Value} {ty : Ty}

/-- Operations on one value give values of the type of their node. -/
theorem UnaryOp.returns_apply {op : UnaryOp} {operandTy : Ty}
    (hfits : op.Fits members operandTy ty) (h : operand.Belongs members operandTy) :
    Returns (op.apply ty operand) fun result => result.Belongs members ty := by
  cases op with
  | member name => exact h.readMember hfits
  | not =>
    cases hfits
    cases operand with
    | boolean b => exact .ok (.boolean _)
    | null => exact .ok .null
    | _ => exact .error _
  | convert => exact h.convert hfits
  | inSet set =>
    cases hfits
    exact .ok (.boolean _)
  | distinct =>
    cases hfits
    refine .bind (.self _) fun items? hitems => ?_
    rcases Value.eq_of_sequence hitems with ⟨items, rfl, rfl⟩ | ⟨rfl, rfl⟩
    · obtain ⟨hlength, hsubset⟩ := Value.distinctItems_subset items
      exact .ok (h.sublist hlength hsubset)
    · exact .ok .null
  | reduce reduction =>
    cases hfits
    refine .bind (.self _) fun items? hitems => ?_
    rcases Value.eq_of_sequence hitems with ⟨items, rfl, rfl⟩ | ⟨rfl, rfl⟩
    · exact .ok (h.reduced reduction)
    · exact .ok .null

/-- An operator that is not one of numbers has the type of truth values, or the dynamic type. -/
theorem BinaryOp.Fits.boolean {op : Operator} {a b : Ty}
    (hfits : (BinaryOp.operator op).Fits a b ty)
    (hop : op.isArithmetic = false) (truth : Bool) :
    (Value.boolean truth).Belongs members ty := by
  rcases hfits with rfl | ⟨_, rfl⟩ | ⟨harithmetic, _⟩ | ⟨rfl, _⟩
  · exact .scalar rfl (.any rfl)
  · exact .boolean truth
  · rw [hop] at harithmetic
    cases harithmetic
  · cases hop

/-- An operator that is no connective gives a value of the type of its node. -/
theorem Operator.returns_apply {op : Operator} {a b : Ty} (hpower : op ≠ .power)
    (hconnective : op.isLogical = false) (hfits : (BinaryOp.operator op).Fits a b ty)
    (hl : left.Conforms members a) (hr : right.Conforms members b) :
    Returns (op.apply ty left right) fun result => result.Belongs members ty := by
  unfold apply
  split
  · rename_i hequality
    exact .ok (hfits.boolean (by cases op <;> cases hequality <;> rfl) _)
  · split
    · rename_i hrelational
      have harithmetic : op.isArithmetic = false := by cases op <;> cases hrelational <;> rfl
      split
      · exact .ok (hfits.boolean harithmetic _)
      · split
        · exact .ok (hfits.boolean harithmetic _)
        · exact .error _
    · rename_i hequality hrelational
      have hscalar := Value.returns_arithmetic_scalar hpower left right ty
      rcases hfits with rfl | ⟨hboolean, rfl⟩ | ⟨_, hnumeric, rfl, rfl⟩ | ⟨rfl, rfl, hleft, hright⟩
      · exact hscalar.mono fun result h => .scalar h (.any rfl)
      · simp [Operator.isComparison, hequality, hrelational, hconnective] at hboolean
      · exact fun result h => .scalar (hscalar result h) (hl.arithmetic hpower hnumeric hr result h)
      · exact fun result h => .scalar (hscalar result h) (hl.join rfl hr hleft hright result h)

/-- What the left operand alone decides has the type of the node. -/
theorem BinaryOp.returns_decided? {op : BinaryOp} {a b : Ty} (hfits : op.Fits a b ty) :
    Returns (op.decided? left) fun result? => ∀ result ∈ result?, result.Belongs members ty := by
  unfold decided?
  split
  · refine .bind (.self _) fun truth _ => .ok ?_
    rintro result hresult
    split at hresult
    · cases hresult
    · cases hresult
      exact hfits.boolean rfl _
  · refine .bind (.self _) fun truth _ => .ok ?_
    rintro result hresult
    split at hresult
    · cases hresult
      exact hfits.boolean rfl _
    · cases hresult
  · refine .bind (.self _) fun items? _ => ?_
    cases items? with
    | none => exact .ok (by rintro _ ⟨⟩; exact .null)
    | some items => exact .ok nofun
  · refine .bind (.self _) fun items? _ => ?_
    cases items? with
    | none => exact .ok (by rintro _ ⟨⟩; exact .null)
    | some items => exact .ok nofun
  · exact .ok nofun

/-- A list of which the left operand alone decides nothing. -/
theorem BinaryOp.eq_list_of_undecided {op : BinaryOp} (hop : op = .take ∨ op = .skip)
    (h : op.decided? left = .ok none) : ∃ items, left = .list items := by
  cases left with
  | list items => exact ⟨items, rfl⟩
  | _ => rcases hop with rfl | rfl <;> cases h

/-- Operations on two values give values of the type of their node. -/
theorem BinaryOp.returns_apply {op : BinaryOp} {a b : Ty} (hpower : op ≠ .operator .power)
    (hfits : op.Fits a b ty) (hl : left.Belongs members a) (hr : right.Belongs members b)
    (hundecided : op.decided? left = .ok none) :
    Returns (op.apply ty left right) fun result => result.Belongs members ty := by
  cases op with
  | operator op =>
    have happly : op.isLogical = false → Returns ((BinaryOp.operator op).apply ty left right)
        fun result => result.Belongs members ty := by
      intro hconnective
      have hreturns := Operator.returns_apply (fun h => hpower (h ▸ rfl)) hconnective
        hfits hl.1 hr.1
      cases op <;> first | exact hreturns | cases hconnective
    cases op with
    | and => exact .bind (.self _) fun truth _ => .ok (hfits.boolean rfl truth)
    | or => exact .bind (.self _) fun truth _ => .ok (hfits.boolean rfl truth)
    | _ => exact happly rfl
  | compareText =>
    cases hfits
    have horder : ∀ n : Int64, IntKind.fits .i32 n.toInt = true →
        (Value.int n).Belongs members (.int .i32) := fun n hn => .scalar rfl (.int rfl hn)
    unfold apply
    dsimp only
    split
    · exact .ok (horder _ (by decide))
    · exact .ok (horder _ (by decide))
    · exact .ok (horder _ (by decide))
    · exact .error _
  | textTest test =>
    cases hfits
    unfold apply TextTest.apply
    dsimp only
    split
    · exact .ok (.boolean _)
    · exact .ok (.boolean _)
    · exact .ok (.boolean _)
    · exact .error _
  | take =>
    cases hfits
    -- `null` would have decided the cut, so there is a list
    obtain ⟨items, rfl⟩ := eq_list_of_undecided (Or.inl rfl) hundecided
    refine .bind (.self _) fun items? hitems => ?_
    cases hitems
    refine .bind (.self _) fun count _ => .ok ?_
    exact hl.sublist (List.length_take_le' _ _) fun item hitem => List.mem_of_mem_take hitem
  | skip =>
    cases hfits
    obtain ⟨items, rfl⟩ := eq_list_of_undecided (Or.inr rfl) hundecided
    refine .bind (.self _) fun items? hitems => ?_
    cases hitems
    refine .bind (.self _) fun count _ => .ok ?_
    refine hl.sublist ?_ fun item hitem => List.mem_of_mem_drop hitem
    rw [List.length_drop]
    exact Nat.sub_le _ _

/-- A binder gives values of the type of its node if its body does for every item. -/
theorem Binder.returns_apply {binder : Binder} {source : Value} {a item b : Ty}
    {body : Value → Except RunFault Value} (hfits : binder.Fits a item b ty)
    (hsource : source.Belongs members a)
    (hbody : ∀ value, value.Belongs members item →
      Returns (body value) fun result => result.Belongs members b) :
    Returns (binder.apply source body) fun result => result.Belongs members ty := by
  cases binder with
  | given =>
    obtain ⟨rfl, rfl⟩ := hfits
    unfold apply
    dsimp only
    split
    · exact .ok .null
    · refine (hbody source (hsource.of_core_eq (Ty.core_underlying a).symm)).mono fun result h => ?_
      exact h.of_core_eq (Ty.core_orNull b).symm
  | filter =>
    obtain ⟨rfl, rfl⟩ := hfits
    refine .bind (.self _) fun items? hitems => ?_
    rcases Value.eq_of_sequence hitems with ⟨items, rfl, rfl⟩ | ⟨rfl, rfl⟩
    · refine .bind (.filterM _ items) fun kept hkept => .ok ?_
      exact hsource.sublist hkept.length_le fun item hitem => hkept.subset hitem
    · exact .ok .null
  | project =>
    obtain ⟨rfl, rfl⟩ := hfits
    refine .bind (.self _) fun items? hitems => ?_
    rcases Value.eq_of_sequence hitems with ⟨items, rfl, rfl⟩ | ⟨rfl, rfl⟩
    · refine .bind (.mapM body items) fun results hresults => .ok (.list ?_ ?_)
      · exact hresults.length_eq ▸ hsource.2.item.1
      · intro result hresult
        obtain ⟨item, hitem, hrun⟩ := Returns.exists_of_mem_of_forall₂ hresults hresult
        exact hbody item (hsource.item item hitem) result hrun
    · exact .ok .null
  | orderBy descending =>
    obtain ⟨rfl, rfl⟩ := hfits
    refine .bind (.self _) fun items? hitems => ?_
    rcases Value.eq_of_sequence hitems with ⟨items, rfl, rfl⟩ | ⟨rfl, rfl⟩
    · refine .bind (.mapM _ items) fun keyed hkeyed => .ok ?_
      have hsorted := (Value.sortKeyed_perm descending keyed).trans
        (.of_eq (Value.map_snd_of_keyed hkeyed))
      exact hsource.sublist (Nat.le_of_eq hsorted.length_eq) fun item hitem => hsorted.subset hitem
    · exact .ok .null

end TypedQuery
