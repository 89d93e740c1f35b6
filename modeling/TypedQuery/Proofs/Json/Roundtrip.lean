import TypedQuery.Json.OfValue
import TypedQuery.Json.Reader
import TypedQuery.Proofs.Schema.Describing

/-!
# JSON as values and back

JSON becomes values in two ways: as a sample, where objects get the types that are inferred for
them, and as variables, where they all have one type. Written as JSON again, either value is what it
was made of, with the members of objects in their order, as long as numbers are integers.
-/

namespace TypedQuery

namespace Json

/-! ### Well-formed JSON -/

namespace Number

/-- Negative integers are kept as such only if they are negative. -/
def IsProper : Number → Prop
  | negative n => n.toInt < 0
  | natural _ | float _ => True

/-- The number is kept as an integer. -/
def isInteger : Number → Bool
  | natural _ | negative _ => true
  | float _ => false

end Number

/-- At every depth the members of an object have different names, and numbers are kept as they
should be. -/
inductive WellFormed : Json → Prop
  | null : WellFormed .null
  | bool (b : Bool) : WellFormed (.bool b)
  | number {n : Json.Number} (hproper : n.IsProper) : WellFormed (.number n)
  | string (s : String) : WellFormed (.string s)
  | array {items : List Json} (hitems : ∀ item ∈ items, WellFormed item) :
      WellFormed (.array items)
  | object {members : List (String × Json)} (hnames : (Entries.names members).Nodup)
      (hmembers : ∀ member ∈ members, WellFormed member.2) : WellFormed (.object members)

mutual

/-- The numbers in a JSON value, at every depth. -/
def numbers : Json → List Json.Number
  | number n => [n]
  | array items => itemNumbers items
  | object members => memberNumbers members
  | null | bool _ | string _ => []

/-- The numbers in items. -/
def itemNumbers : List Json → List Json.Number
  | [] => []
  | item :: rest => numbers item ++ itemNumbers rest

/-- The numbers in members. -/
def memberNumbers : List (String × Json) → List Json.Number
  | [] => []
  | (_, json) :: rest => numbers json ++ memberNumbers rest

end

variable {json item : Json} {items : List Json} {members : List (String × Json)}

/-- The numbers of an item are among those of the items. -/
theorem numbers_subset_itemNumbers (hitem : item ∈ items) : item.numbers ⊆ itemNumbers items := by
  induction items with
  | nil => cases hitem
  | cons first rest ih =>
    rcases List.mem_cons.mp hitem with rfl | hitem
    · exact List.subset_append_left _ _
    · exact List.subset_append_of_subset_right _ (ih hitem)

/-- The numbers of a member are among those of the members. -/
theorem numbers_subset_memberNumbers {member : String × Json} (hmember : member ∈ members) :
    member.2.numbers ⊆ memberNumbers members := by
  induction members with
  | nil => cases hmember
  | cons first rest ih =>
    rcases List.mem_cons.mp hmember with rfl | hmember
    · exact List.subset_append_left _ _
    · exact List.subset_append_of_subset_right _ (ih hmember)

/-! ### What is read is well-formed -/

/-- The number that a text denotes, or a float in its place, is kept as it should be. -/
theorem isProper_of_ofNumberParts? {isNegative : Bool} {parts : Number.Parts} {n : Json.Number}
    (h : Number.ofNumberParts? isNegative parts = some n) : n.IsProper := by
  have hfloat : ∀ {significand : Nat} {exponent : Int},
      Number.ofParts? isNegative significand exponent = some n → n.IsProper := by
    intro significand exponent h
    obtain ⟨x, -, rfl⟩ := Option.map_eq_some_iff.mp h
    trivial
  unfold Number.ofNumberParts? at h
  dsimp only at h
  split at h
  · split at h
    · exact hfloat h
    · split at h
      · cases h
        trivial
      · split at h
        · rename_i hsmall
          cases h
          have hlimit : powerOfTwo 63 = 2 ^ 63 := by decide
          change (Int64.ofInt _).toInt < 0
          rw [Int64.toInt_ofInt_of_le (by omega) (by omega)]
          omega
        · exact hfloat h
  · split at h
    · split at h
      · cases h
      · cases h
        trivial
    · exact hfloat h

/-- What is read of a number is kept as it should be. -/
theorem isProper_of_scan? {text rest : List Char} {n : Json.Number}
    (h : Number.scan? text = some (n, rest)) : n.IsProper := by
  unfold Number.scan? at h
  dsimp only at h
  obtain ⟨⟨parts, left⟩, -, hparts⟩ := Option.bind_eq_some_iff.mp h
  obtain ⟨number, hnumber, heq⟩ := Option.map_eq_some_iff.mp hparts
  cases heq
  exact isProper_of_ofNumberParts? hnumber

/-- The readers of values, items and members give well-formed JSON. -/
structure ReadersSound (fuel : Nat) : Prop where
  value : ∀ {depth text json rest}, readValue? fuel depth text = some (json, rest) →
    json.WellFormed
  items : ∀ {depth text items rest}, readItems? fuel depth text = some (items, rest) →
    ∀ item ∈ items, item.WellFormed
  members : ∀ {depth text members rest}, readMembers? fuel depth text = some (members, rest) →
    ∀ member ∈ members, member.2.WellFormed

namespace ReadersSound

variable {fuel depth : Nat} {text rest : List Char}

/-- The reader of values gives well-formed JSON if the readers with less fuel do. -/
theorem value_succ (ih : ReadersSound fuel)
    (h : readValue? (fuel + 1) depth text = some (json, rest)) : json.WellFormed := by
  unfold readValue? at h
  split at h
  · cases h
  · obtain ⟨_, -, heq⟩ := Option.map_eq_some_iff.mp h
    cases heq
    exact .string _
  · split at h
    · cases h
    · split at h
      · cases h
        exact .array nofun
      · obtain ⟨_, hitems, heq⟩ := Option.map_eq_some_iff.mp h
        cases heq
        exact .array (ih.items hitems)
  · split at h
    · cases h
    · split at h
      · cases h
        exact .object List.nodup_nil nofun
      · obtain ⟨_, hmembers, heq⟩ := Option.map_eq_some_iff.mp h
        cases heq
        exact .object (Entries.nodup_names_ofList _) fun member hmember =>
          ih.members hmembers member (Entries.mem_of_mem_ofList hmember)
  · obtain ⟨_, -, heq⟩ := Option.map_eq_some_iff.mp h
    cases heq
    exact .null
  · obtain ⟨_, -, heq⟩ := Option.map_eq_some_iff.mp h
    cases heq
    exact .bool true
  · obtain ⟨_, -, heq⟩ := Option.map_eq_some_iff.mp h
    cases heq
    exact .bool false
  · obtain ⟨_, hnumber, heq⟩ := Option.map_eq_some_iff.mp h
    cases heq
    exact .number (isProper_of_scan? hnumber)

/-- The reader of items gives well-formed JSON if the readers with less fuel do. -/
theorem items_succ (ih : ReadersSound fuel)
    (h : readItems? (fuel + 1) depth text = some (items, rest)) :
    ∀ item ∈ items, item.WellFormed := by
  unfold readItems? at h
  obtain ⟨⟨first, left⟩, hfirst, h⟩ := Option.bind_eq_some_iff.mp h
  dsimp only at h
  split at h
  · obtain ⟨⟨others, _⟩, hothers, h⟩ := Option.bind_eq_some_iff.mp h
    cases h
    exact List.forall_mem_cons.mpr ⟨ih.value hfirst, ih.items hothers⟩
  · cases h
    exact List.forall_mem_singleton.mpr (ih.value hfirst)
  · cases h

/-- The reader of members gives well-formed JSON if the readers with less fuel do. -/
theorem members_succ (ih : ReadersSound fuel)
    (h : readMembers? (fuel + 1) depth text = some (members, rest)) :
    ∀ member ∈ members, member.2.WellFormed := by
  unfold readMembers? at h
  split at h
  · obtain ⟨⟨name, afterName⟩, -, h⟩ := Option.bind_eq_some_iff.mp h
    dsimp only at h
    split at h
    · obtain ⟨⟨first, afterValue⟩, hfirst, h⟩ := Option.bind_eq_some_iff.mp h
      dsimp only at h
      split at h
      · obtain ⟨⟨others, _⟩, hothers, h⟩ := Option.bind_eq_some_iff.mp h
        cases h
        exact List.forall_mem_cons.mpr ⟨ih.value hfirst, ih.members hothers⟩
      · cases h
        exact List.forall_mem_singleton.mpr (ih.value hfirst)
      · cases h
    · cases h
  · cases h

end ReadersSound

/-- With any fuel, the readers give well-formed JSON. -/
theorem readersSound (fuel : Nat) : ReadersSound fuel := by
  induction fuel with
  | zero => exact ⟨nofun, nofun, nofun⟩
  | succ fuel ih => exact ⟨ih.value_succ, ih.items_succ, ih.members_succ⟩

/-- JSON that is read is well-formed. -/
theorem wellFormed_of_read {source : String} (h : read? source = some json) : json.WellFormed := by
  unfold read? at h
  split at h
  · rename_i hread
    split at h
    · cases h
      exact (readersSound _).value hread
    · cases h
  · cases h

/-! ### Values written as JSON -/

variable {schema? : Option Schema} {n : Json.Number}

/-- An unsigned integer is written as the number that it is. -/
theorem toJson_ofUInt64 (n : UInt64) :
    (Value.ofUInt64 n).toJson schema? = .number (.natural n) := by
  unfold Value.ofUInt64
  split
  · rename_i hsmall
    have hvalue : (Int64.ofInt n.toNat).toInt = n.toNat :=
      IntKind.toInt_ofInt (IntKind.fits_natCast.mpr hsmall)
    unfold Value.toJson Number.ofInt64
    rw [hvalue, if_neg (by omega), Int.toNat_natCast, UInt64.ofNat_toNat]
  · rfl

/-- An integer is written as it was read. -/
theorem toJson_toValue_number (hproper : n.IsProper) (hinteger : n.isInteger = true) :
    n.toValue.toJson schema? = .number n := by
  cases n with
  | natural n => exact toJson_ofUInt64 n
  | negative n =>
    have hnegative : n.toInt < 0 := hproper
    unfold Number.toValue Value.toJson Number.ofInt64
    rw [if_pos hnegative]
  | float x => cases hinteger

/-- An integer of a sample has the value that it has as a variable. -/
theorem infer_eq_toValue (hinteger : n.isInteger = true) : n.infer.2 = n.toValue := by
  cases n with
  | natural n => exact infer_natural n
  | negative n => rfl
  | float x => cases hinteger

/-- A list is written item by item. -/
theorem toJson_list {f : Json → Value} (h : ∀ item ∈ items, (f item).toJson schema? = item) :
    (Value.list (items.map f)).toJson schema? = .array items := by
  unfold Value.toJson
  rw [Value.itemsToJson_eq_map, List.map_map]
  exact congrArg array ((List.map_congr_left h).trans (List.map_id items))

/-- An object is written member by member in their order. -/
theorem toJson_object (f : String → Json → Value) (type : String)
    (hnames : (Entries.names members).Nodup)
    (h : ∀ member ∈ members, (f member.1 member.2).toJson schema? = member.2) :
    (Value.object type (Entries.ofList (members.map fun member =>
      (member.1, f member.1 member.2)))).toJson schema? = .object members := by
  have hmembers : members.map (fun member => (member.1, (f member.1 member.2).toJson schema?)) =
      members := by
    refine (List.map_congr_left fun member hmember => ?_).trans (List.map_id members)
    rw [h member hmember]
    rfl
  unfold Value.toJson
  rw [Entries.ofList_mapEntries, Entries.ofList_of_nodup hnames, Value.membersToJson_eq_map,
    List.map_map]
  change object (Entries.ofList (members.map fun member =>
    (member.1, (f member.1 member.2).toJson schema?))) = _
  rw [hmembers, Entries.ofList_of_nodup hnames]

/-- The value of a sample is written as the sample. -/
theorem toJson_sampled (h : json.WellFormed) (hintegers : ∀ n ∈ json.numbers, n.isInteger = true)
    (type : String) : (json.sampled type).toJson schema? = json := by
  induction h generalizing type with
  | null | bool | string => rfl
  | @number n hproper =>
    have hinteger := hintegers n (List.mem_singleton_self n)
    unfold sampled
    rw [infer_eq_toValue hinteger]
    exact toJson_toValue_number hproper hinteger
  | @array items _ ih =>
    unfold sampled
    rw [sampledItems_eq]
    exact toJson_list fun item hitem => ih item hitem
      (fun n hn => hintegers n (numbers_subset_itemNumbers hitem hn)) type
  | @object members hnames _ ih =>
    unfold sampled
    rw [sampledMembers_eq]
    exact toJson_object (fun name json => json.sampled (typeNameOf name)) type hnames
      fun member hmember => ih member hmember
        (fun n hn => hintegers n (numbers_subset_memberNumbers hmember hn)) (typeNameOf member.1)

/-- The value of a variable is written as it was read. -/
theorem toJson_toValue (h : json.WellFormed) (hintegers : ∀ n ∈ json.numbers, n.isInteger = true) :
    json.toValue.toJson schema? = json := by
  induction h with
  | null | bool | string => rfl
  | @number n hproper =>
    exact toJson_toValue_number hproper (hintegers n (List.mem_singleton_self n))
  | @array items _ ih =>
    unfold toValue
    rw [itemsToValue_eq_map]
    exact toJson_list fun item hitem => ih item hitem
      fun n hn => hintegers n (numbers_subset_itemNumbers hitem hn)
  | @object members hnames _ ih =>
    unfold toValue
    rw [membersToValue_eq_map]
    exact toJson_object (fun _ => toValue) "Input" hnames fun member hmember => ih member hmember
      fun n hn => hintegers n (numbers_subset_memberNumbers hmember hn)

/-- The context of a sample is its value. -/
theorem context_ofSample (json : Json) : (Schema.ofSample json).2 = json.sampled "Query" := by
  obtain ⟨sketch, hrun, -⟩ := run_infer "Query" json []
  unfold Schema.ofSample
  rw [hrun]

/-- JSON whose numbers are integers is what is written for the context of its sample, with the
schema that is inferred, and for its value as a variable, with any schema. Objects keep the order of
their members at every depth. -/
theorem values_written_back (json : Json) (hjson : json.WellFormed)
    (hintegers : ∀ n ∈ json.numbers, n.isInteger = true) :
    (Schema.ofSample json).2.toJson (some (Schema.ofSample json).1) = json ∧
      ∀ schema?, json.toValue.toJson schema? = json := by
  rw [context_ofSample]
  exact ⟨toJson_sampled hjson hintegers "Query", fun _ => toJson_toValue hjson hintegers⟩

/-- An object with the largest number of all, a negative one, and an object in an array. -/
def ledger : Json := .object [("total", .number (.natural 18446744073709551615)),
  ("debts", .array [.number (.negative (-1)), .object [("who", .null), ("paid", .bool false)]])]

/-- The ledger is written back as it is, from a sample and from variables. -/
theorem values_written_back_ledger :
    ledger.WellFormed ∧ (∀ n ∈ ledger.numbers, n.isInteger = true) ∧
      (Schema.ofSample ledger).2.toJson (some (Schema.ofSample ledger).1) = ledger ∧
      ledger.toValue.toJson none = ledger := by
  have hdebt : (object [("who", .null), ("paid", .bool false)]).WellFormed :=
    .object (by decide) (by
      simp only [List.forall_mem_cons]
      exact ⟨.null, .bool false, nofun⟩)
  have hdebts : (array [.number (.negative (-1)),
      .object [("who", .null), ("paid", .bool false)]]).WellFormed := by
    refine .array ?_
    have hnegative : (-1 : Int64).toInt < 0 := by decide
    simp only [List.forall_mem_cons]
    exact ⟨.number hnegative, hdebt, nofun⟩
  have hledger : ledger.WellFormed := by
    refine .object (by decide) ?_
    simp only [List.forall_mem_cons]
    exact ⟨.number trivial, hdebts, nofun⟩
  have hintegers : ∀ n ∈ ledger.numbers, n.isInteger = true := by decide
  obtain ⟨hsample, hvariable⟩ := values_written_back ledger hledger hintegers
  exact ⟨hledger, hintegers, hsample, hvariable none⟩

end Json

end TypedQuery
