import Mathlib.Data.Finset.Card
import TypedQuery.Proofs.Entries
import TypedQuery.Register

/-!
# Record types and their numbers

A register keeps record types under their signatures, and the numbers come from a counter. What one
request keeps is that no signature is there twice, and that the kept types have the numbers below
the counter, each in its place. So, whatever record types are asked for, one after another, the
register holds the different ones in the order in which they were first asked for, a number is never
given twice, and nothing that is asked for later changes a type or its number.
-/

namespace TypedQuery

/-- Every name with the last type under it, in the order in which the names first appear. -/
def Signature.settled (fields : List (String × Ty)) : Signature :=
  (Entries.names fields).eraseDups.filterMap fun name =>
    (fields.reverse.lookup name).map fun ty => (name, ty)

section Lists

variable {α : Type} [BEq α] [LawfulBEq α] {items : List α} {item : α}

/-- An item at the end is kept if it is not there before. -/
theorem eraseDups_concat : (items ++ [item]).eraseDups =
    if item ∈ items then items.eraseDups else items.eraseDups ++ [item] := by
  rw [List.eraseDups_append]
  split <;> simp_all [List.removeAll, List.eraseDups_cons]

/-- Without repetitions no item is there twice. -/
theorem nodup_eraseDups (items : List α) : items.eraseDups.Nodup := by
  induction items using List.reverseRecOn with
  | nil => exact List.nodup_nil
  | append_singleton items item ih =>
    rw [eraseDups_concat]
    split
    · exact ih
    · rename_i hitem
      have hnew : item ∉ items.eraseDups := fun h => hitem (List.mem_eraseDups.mp h)
      exact ih.append (List.nodup_singleton item) (List.disjoint_singleton.mpr hnew)

end Lists

namespace Entries

variable {α : Type} {entries : Entries α} {name : String} {value : α}

/-- An insertion leaves the names if its own is there, and puts it at the end if not. -/
theorem names_insert : names (insert entries name value) =
    if name ∈ names entries then names entries else names entries ++ [name] := by
  induction entries with
  | nil => rfl
  | cons entry rest ih =>
    unfold insert names
    by_cases hname : entry.1 = name
    · simp [hname]
    · have hne : name ≠ entry.1 := fun h => hname h.symm
      rw [if_neg hname, List.map_cons]
      change entry.1 :: names (insert rest name value) = _
      rw [ih]
      simp only [List.map_cons, List.mem_cons, hne, false_or]
      split <;> simp_all [names]

/-- The names of a list in the order in which they first appear. -/
theorem names_ofList (pairs : List (String × α)) :
    names (ofList pairs) = (names pairs).eraseDups := by
  induction pairs using List.reverseRecOn with
  | nil => rfl
  | append_singleton pairs pair ih =>
    have hnames : names (pairs ++ [pair]) = names pairs ++ [pair.1] := by simp [names]
    have hinsert : ofList (pairs ++ [pair]) = insert (ofList pairs) pair.1 pair.2 := extend_append
    rw [hnames, hinsert, names_insert, eraseDups_concat, ih]
    simp only [List.mem_eraseDups]

/-- Entries without repeated names are what is found under their names. -/
theorem filterMap_names (h : (names entries).Nodup) :
    ((names entries).filterMap fun name => (find? entries name).map fun value => (name, value)) =
      entries := by
  have hfound : ∀ entry ∈ entries,
      ((find? entries entry.1).map fun value => (entry.1, value)) = some entry := by
    intro entry hentry
    rw [find?_of_mem_of_nodup h hentry]
    rfl
  unfold names
  rw [List.filterMap_map]
  exact (List.filterMap_congr hfound).trans List.filterMap_some

end Entries

/-- The record type of a list of fields has the settled fields. -/
theorem Signature.ofList_eq_settled (fields : List (String × Ty)) :
    Entries.ofList fields = settled fields := by
  have hnodup := Entries.nodup_names_ofList fields
  unfold settled
  rw [← Entries.names_ofList]
  refine (Entries.filterMap_names hnodup).symm.trans (List.filterMap_congr fun name _ => ?_)
  have hlast : Entries.find? (Entries.ofList fields).reverse name =
      Entries.find? fields.reverse name := Entries.find?_reverse_ofList fields
  rw [Entries.find?_reverse_of_nodup hnodup] at hlast
  rw [hlast]
  rfl

namespace Register

/-- Asks for the record types of lists of fields, one after another. -/
def createAll (register : Register) : List (List (String × Ty)) → List RecordType × Register
  | [] => ([], register)
  | fields :: rest =>
    let (type, next) := register.create fields
    let (types, last) := next.createAll rest
    (type :: types, last)

/-- The signatures in the order in which they were first asked for. -/
def signatures (register : Register) : List Signature :=
  register.types.map Prod.fst

/-- No signature is there twice, and the types have the numbers that the counter has passed, in
their order. -/
structure Numbered (register : Register) : Prop where
  distinct : register.signatures.Nodup
  counted : register.types.map (fun entry => entry.2.id) = List.range register.nextId

variable {register last : Register} {signature other : Signature} {fields : List (String × Ty)}
  {calls : List (List (String × Ty))} {type : RecordType}

/-! ### One request -/

/-- A signature that is not in the register has no type there. -/
theorem find?_eq_none_iff : register.find? signature = none ↔ signature ∉ register.signatures := by
  unfold find? signatures
  rw [List.lookup_eq_none_iff, List.mem_map]
  constructor
  · rintro h ⟨entry, hmem, rfl⟩
    exact bne_iff_ne.mp (h entry hmem) rfl
  · intro h entry hmem
    exact bne_iff_ne.mpr fun hsame => h ⟨entry, hmem, hsame.symm⟩

/-- A type is found where it is kept. -/
theorem mem_types_of_find? (h : register.find? signature = some type) :
    (signature, type) ∈ register.types := by
  obtain ⟨_, _, htypes, -⟩ := List.lookup_eq_some_iff.mp h
  simp [htypes]

/-- Asking for a signature that is there changes nothing. -/
theorem create_of_find? (h : register.find? (Signature.settled fields) = some type) :
    register.create fields = (type, register) := by
  unfold create
  rw [Signature.ofList_eq_settled]
  simp only [h]

/-- A signature that is not there gets the next number. -/
theorem create_of_notMem (h : Signature.settled fields ∉ register.signatures) :
    register.create fields = register.issue (Signature.settled fields) := by
  unfold create
  rw [Signature.ofList_eq_settled]
  simp only [find?_eq_none_iff.mpr h]

/-- One request asks for a signature that is there, or for a new one. -/
theorem create_cases (register : Register) (fields : List (String × Ty)) :
    (∃ type, register.find? (Signature.settled fields) = some type ∧
        register.create fields = (type, register)) ∨
      Signature.settled fields ∉ register.signatures ∧
        register.create fields = register.issue (Signature.settled fields) := by
  cases hfound : register.find? (Signature.settled fields) with
  | some type => exact .inl ⟨type, rfl, create_of_find? hfound⟩
  | none =>
    have hnew := find?_eq_none_iff.mp hfound
    exact .inr ⟨hnew, create_of_notMem hnew⟩

/-- A new type has its signature at the end. -/
theorem signatures_issue : (register.issue signature).2.signatures =
    register.signatures ++ [signature] :=
  List.map_append

/-- A new signature stands at the end of the register. -/
theorem signatures_create : (register.create fields).2.signatures =
    if Signature.settled fields ∈ register.signatures then register.signatures
    else register.signatures ++ [Signature.settled fields] := by
  rcases create_cases register fields with ⟨type, hfound, hcreate⟩ | ⟨hnew, hcreate⟩
  · have hmem : Signature.settled fields ∈ register.signatures :=
      List.mem_map_of_mem (mem_types_of_find? hfound)
    rw [hcreate, if_pos hmem]
  · rw [hcreate, if_neg hnew, signatures_issue]

/-- A new type has the number at which the counter stands, which it then passes. -/
theorem Numbered.issue (h : register.Numbered) (hnew : signature ∉ register.signatures) :
    (register.issue signature).2.Numbered := by
  constructor
  · rw [signatures_issue]
    exact h.distinct.append (List.nodup_singleton signature) (List.disjoint_singleton.mpr hnew)
  · change (register.types ++ [_]).map _ = List.range (register.nextId + 1)
    rw [List.map_append, h.counted, List.range_succ]
    rfl

/-- A request keeps the numbers in order. -/
theorem Numbered.create (h : register.Numbered) (fields : List (String × Ty)) :
    (register.create fields).2.Numbered := by
  rcases create_cases register fields with ⟨type, -, hcreate⟩ | ⟨hnew, hcreate⟩
  · rwa [hcreate]
  · rw [hcreate]
    exact h.issue hnew

/-- A request only adds to the end of the register. -/
theorem continues_create (register : Register) (fields : List (String × Ty)) :
    register.types <+: (register.create fields).2.types := by
  rcases create_cases register fields with ⟨type, -, hcreate⟩ | ⟨-, hcreate⟩
  · rw [hcreate]
  · rw [hcreate]
    exact List.prefix_append _ _

/-- A type is found in every register that continues the one where it is. -/
theorem find?_of_continues (h : register.types <+: last.types)
    (hfound : register.find? signature = some type) : last.find? signature = some type := by
  obtain ⟨more, hmore⟩ := h
  unfold find? at hfound ⊢
  rw [← hmore, List.lookup_append, hfound]
  rfl

/-- What is handed out is what the register then keeps. -/
theorem find?_create (register : Register) (fields : List (String × Ty)) :
    (register.create fields).2.find? (Signature.settled fields) =
      some (register.create fields).1 := by
  rcases create_cases register fields with ⟨type, hfound, hcreate⟩ | ⟨hnew, hcreate⟩
  · rw [hcreate]
    exact hfound
  · have hnone : register.types.lookup (Signature.settled fields) = none :=
      find?_eq_none_iff.mpr hnew
    rw [hcreate]
    unfold find? Register.issue
    rw [List.lookup_append, hnone]
    simp

/-! ### Numbers of kept types -/

namespace Numbered

/-- The counter stands at the number of types. -/
theorem nextId_eq (h : register.Numbered) : register.nextId = register.size := by
  have hlength := congrArg List.length h.counted
  rw [List.length_map, List.length_range] at hlength
  exact hlength.symm

/-- A type has the number of its place. -/
theorem getElem?_id (h : register.Numbered) (hmem : (signature, type) ∈ register.types) :
    register.types[type.id]? = some (signature, type) := by
  obtain ⟨place, hplace⟩ := List.mem_iff_getElem?.mp hmem
  have hid : (register.types.map fun entry => entry.2.id)[place]? = some type.id := by
    rw [List.getElem?_map, hplace]
    rfl
  rw [h.counted] at hid
  obtain ⟨hlt, hsame⟩ := List.getElem?_eq_some_iff.mp hid
  rw [List.getElem_range] at hsame
  rw [← hsame]
  exact hplace

/-- Two signatures have types of one number only if they are the same. -/
theorem signature_inj (h : register.Numbered) {a b : RecordType}
    (ha : register.find? signature = some a) (hb : register.find? other = some b)
    (hid : a.id = b.id) : signature = other := by
  have hfirst := h.getElem?_id (mem_types_of_find? ha)
  have hsecond := h.getElem?_id (mem_types_of_find? hb)
  rw [hid] at hfirst
  exact congrArg Prod.fst (Option.some.inj (hfirst.symm.trans hsecond))

/-- The numbers of the types are those below the number of types. -/
theorem lt_size_iff (h : register.Numbered) {number : Nat} :
    number < register.size ↔ ∃ entry ∈ register.types, entry.2.id = number := by
  rw [← h.nextId_eq, ← List.mem_range, ← h.counted, List.mem_map]

/-- A type is found under its signature. -/
theorem find?_of_mem (h : register.Numbered) (hmem : (signature, type) ∈ register.types) :
    register.find? signature = some type := by
  cases hfound : register.find? signature with
  | none => exact absurd (List.mem_map_of_mem hmem) (find?_eq_none_iff.mp hfound)
  | some found =>
    have hsame : ((signature, found) : Signature × RecordType) = (signature, type) :=
      List.inj_on_of_nodup_map h.distinct (mem_types_of_find? hfound) hmem rfl
    rw [(Prod.mk.inj hsame).2]

end Numbered

/-! ### Requests one after another -/

/-- Requests can be made in two goes. -/
theorem createAll_append (calls later : List (List (String × Ty))) (register : Register) :
    register.createAll (calls ++ later) =
      ((register.createAll calls).1 ++ ((register.createAll calls).2.createAll later).1,
        ((register.createAll calls).2.createAll later).2) := by
  induction calls generalizing register with
  | nil => rfl
  | cons fields rest ih =>
    simp only [List.cons_append, createAll, ih]

/-- Requests keep the numbers in order. -/
theorem Numbered.createAll (h : register.Numbered) (calls : List (List (String × Ty))) :
    (register.createAll calls).2.Numbered := by
  induction calls generalizing register with
  | nil => exact h
  | cons fields rest ih => exact ih (h.create fields)

/-- A register without types is numbered. -/
theorem numbered_fresh (shared : Bool) : (fresh shared).Numbered :=
  ⟨List.nodup_nil, rfl⟩

/-- Requests only add to the end of the register. -/
theorem continues_createAll (calls : List (List (String × Ty))) (register : Register) :
    register.types <+: (register.createAll calls).2.types := by
  induction calls generalizing register with
  | nil => exact List.prefix_rfl
  | cons fields rest ih => exact (continues_create register fields).trans (ih _)

/-- The types that are handed out have the fields that were asked for. -/
theorem fields_createAll (calls : List (List (String × Ty))) (register : Register) :
    (register.createAll calls).1.map RecordType.fields = calls.map Signature.settled := by
  induction calls generalizing register with
  | nil => rfl
  | cons fields rest ih =>
    rw [List.map_cons, ← Signature.ofList_eq_settled, ← register.fields_create fields]
    exact congrArg _ (ih _)

/-- What has been handed out is what the register keeps in the end. -/
theorem find?_of_mem_createAll (h : type ∈ (register.createAll calls).1) :
    (register.createAll calls).2.find? type.fields = some type := by
  induction calls generalizing register with
  | nil => cases h
  | cons fields rest ih =>
    rcases List.mem_cons.mp h with hfirst | h
    · change type = (register.create fields).1 at hfirst
      rw [hfirst, fields_create, Signature.ofList_eq_settled]
      exact find?_of_continues (continues_createAll rest _) (find?_create register fields)
    · exact ih h

/-- In the end the register holds the different signatures in the order in which they were first
asked for. -/
theorem signatures_createAll (shared : Bool) (calls : List (List (String × Ty))) :
    ((fresh shared).createAll calls).2.signatures = (calls.map Signature.settled).eraseDups := by
  -- on the last request, which adds its signature where this is new
  induction calls using List.reverseRecOn with
  | nil => rfl
  | append_singleton calls fields ih =>
    rw [createAll_append, List.map_append, List.map_singleton, eraseDups_concat, ← ih]
    refine signatures_create.trans ?_
    rw [ih]
    simp only [List.mem_eraseDups]

/-- There are as many types as different signatures. -/
theorem size_createAll (shared : Bool) (calls : List (List (String × Ty))) :
    ((fresh shared).createAll calls).2.size = (calls.map Signature.settled).toFinset.card := by
  have hfinset : (calls.map Signature.settled).eraseDups.toFinset =
      (calls.map Signature.settled).toFinset := by
    ext signature
    simp only [List.mem_toFinset, List.mem_eraseDups]
  rw [← hfinset, List.toFinset_card_of_nodup (nodup_eraseDups _), ← signatures_createAll shared]
  exact (List.length_map _).symm

/-- Everything that the register keeps has been handed out. -/
theorem mem_createAll_of_mem_types {shared : Bool}
    (h : (signature, type) ∈ ((fresh shared).createAll calls).2.types) :
    type ∈ ((fresh shared).createAll calls).1 := by
  have hsignature := List.mem_map_of_mem (f := Prod.fst) h
  change signature ∈ ((fresh shared).createAll calls).2.signatures at hsignature
  rw [signatures_createAll, List.mem_eraseDups, ← fields_createAll calls (fresh shared)]
    at hsignature
  obtain ⟨found, hmem, rfl⟩ := List.mem_map.mp hsignature
  have hkept := find?_of_mem_createAll hmem
  rw [((numbered_fresh shared).createAll calls).find?_of_mem h] at hkept
  rwa [Option.some.inj hkept]

/-- A signature that has not been asked for before gets the number of the different ones before
it. -/
theorem createAll_of_notMem (shared : Bool) {before after : List (List (String × Ty))}
    (h : Signature.settled fields ∉ before.map Signature.settled) :
    ((fresh shared).createAll (before ++ fields :: after)).1[before.length]? =
      some ⟨(before.map Signature.settled).eraseDups.length, Signature.settled fields⟩ := by
  let register := ((fresh shared).createAll before).2
  have hlength : ((fresh shared).createAll before).1.length = before.length := by
    simpa using congrArg List.length (fields_createAll before (fresh shared))
  have hnew : Signature.settled fields ∉ register.signatures := by
    rw [signatures_createAll, List.mem_eraseDups]
    exact h
  -- the counter has passed one number for each signature before
  have hcount : register.nextId = (before.map Signature.settled).eraseDups.length := by
    rw [((numbered_fresh shared).createAll before).nextId_eq, ← signatures_createAll shared]
    exact (List.length_map _).symm
  have hfirst : (register.create fields).1 = ⟨register.nextId, Signature.settled fields⟩ := by
    rw [create_of_notMem hnew]
    rfl
  rw [createAll_append, List.getElem?_append_right hlength.le, hlength, Nat.sub_self, ← hcount,
    ← hfirst]
  rfl

/-- Record types are identified by their settled fields. Whatever types are asked for, starting
without any, each is handed out with its settled fields, whose names differ, and two have the same
number exactly if they have the same fields. A type that is asked for the first time has the number
of the different ones before it, so that numbers count up from zero without gaps, and there are as
many as different types. Whatever is asked for later, the types that were handed out are kept with
their numbers and their fields, and texts go by these numbers. -/
theorem createAll_identifies (shared : Bool) (calls : List (List (String × Ty))) :
    let signatures := calls.map Signature.settled
    let (types, register) := (fresh shared).createAll calls
    types.map RecordType.fields = signatures ∧
      (∀ type ∈ types, (Entries.names type.fields).Nodup) ∧
      (∀ a ∈ types, ∀ b ∈ types, a.id = b.id ↔ a.fields = b.fields) ∧
      (∀ before fields after, calls = before ++ fields :: after →
        Signature.settled fields ∉ before.map Signature.settled →
          types[before.length]? =
            some ⟨(before.map Signature.settled).eraseDups.length, Signature.settled fields⟩) ∧
      (∀ number, number < register.size ↔ ∃ type ∈ types, type.id = number) ∧
      register.size = signatures.toFinset.card ∧
      register.nextId = register.size ∧
      ∀ later, types <+: ((fresh shared).createAll (calls ++ later)).1 ∧ ∀ type ∈ types,
        ((fresh shared).createAll (calls ++ later)).2.find? type.fields = some type ∧
          ((fresh shared).createAll (calls ++ later)).2.nameOf type.fields = type.name := by
  have hnumbered := (numbered_fresh shared).createAll calls
  have hfields := fields_createAll calls (fresh shared)
  refine ⟨hfields, fun type htype => ?_, fun a ha b hb => ⟨fun hid => ?_, fun hsame => ?_⟩, ?_,
    fun number => ?_, size_createAll shared calls, hnumbered.nextId_eq, fun later => ?_⟩
  · obtain ⟨fields, -, hsettled⟩ := List.mem_map.mp (hfields ▸ List.mem_map_of_mem htype)
    rw [← hsettled, ← Signature.ofList_eq_settled]
    exact Entries.nodup_names_ofList fields
  · exact hnumbered.signature_inj (find?_of_mem_createAll ha) (find?_of_mem_createAll hb) hid
  · have hkept := find?_of_mem_createAll ha
    rw [hsame, find?_of_mem_createAll hb] at hkept
    rw [Option.some.inj hkept]
  · rintro before fields after rfl hnew
    exact createAll_of_notMem shared hnew
  · rw [hnumbered.lt_size_iff]
    constructor
    · rintro ⟨⟨signature, type⟩, hmem, rfl⟩
      exact ⟨type, mem_createAll_of_mem_types hmem, rfl⟩
    · rintro ⟨type, htype, rfl⟩
      exact ⟨_, mem_types_of_find? (find?_of_mem_createAll htype), rfl⟩
  · rw [createAll_append]
    refine ⟨List.prefix_append _ _, fun type htype => ?_⟩
    have hkept := find?_of_continues (continues_createAll later _) (find?_of_mem_createAll htype)
    refine ⟨hkept, ?_⟩
    unfold nameOf
    rw [hkept]
    rfl

end Register

end TypedQuery
