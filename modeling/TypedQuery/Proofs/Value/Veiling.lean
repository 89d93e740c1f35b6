import TypedQuery.Proofs.Value.Preservation

/-!
# Values behind a veil

One member of the objects of one type is hidden. Two values of a type differ behind the veil if
nothing but hidden members, in objects that stand where the type has them, tells them apart. From
the values of a clear type no hidden object can be reached, so that such values are equal.
-/

namespace TypedQuery

/-- The members that fields read, and a member of the objects of a type that is hidden. -/
structure Veil where
  members : Members
  type : String
  member : String

namespace Veil

/-- The member of the objects of a type is the hidden one. -/
def Hidden (veil : Veil) (type name : String) : Prop :=
  type = veil.type ∧ name = veil.member

/-- The members that are not hidden. -/
def visible (veil : Veil) : Members := fun type name ty =>
  veil.members type name ty ∧ ¬ veil.Hidden type name

/-- Two values of a type differ in nothing but hidden members. Members that are read at several
types differ in nothing else at each of them, and members that are not read are equal. -/
inductive Hides (veil : Veil) : Ty → Value → Value → Prop
  | refl {ty : Ty} {value : Value} : Hides veil ty value value
  | list {ty element : Ty} {pairs : List (Value × Value)} (h : ty.core = .list element)
      (hitems : ∀ pair ∈ pairs, Hides veil element pair.1 pair.2) :
      Hides veil ty (.list (pairs.map Prod.fst)) (.list (pairs.map Prod.snd))
  | object {ty : Ty} {type label : String} {entries : List (String × Value × Value)}
      (h : ty.core = .object type)
      (hread : ∀ entry ∈ entries, entry.2.1 ≠ entry.2.2 →
        veil.Hidden type entry.1 ∨ ∃ memberTy, veil.visible type entry.1 memberTy)
      (hentries : ∀ entry ∈ entries, ∀ memberTy, veil.visible type entry.1 memberTy →
        Hides veil memberTy entry.2.1 entry.2.2) :
      Hides veil ty (.object label (entries.map fun entry => (entry.1, entry.2.1)))
        (.object label (entries.map fun entry => (entry.1, entry.2.2)))
  | record {ty : Ty} {cells : List ((String × Ty) × Value × Value)}
      (h : ty.core = .record (cells.map Prod.fst))
      (hcells : ∀ cell ∈ cells, Hides veil cell.1.2 cell.2.1 cell.2.2) :
      Hides veil ty (.record (cells.map Prod.fst) (cells.map fun cell => cell.2.1))
        (.record (cells.map Prod.fst) (cells.map fun cell => cell.2.2))

/-- An object with a hidden member can be reached from values of a type. -/
inductive Reaches (veil : Veil) : Ty → Prop
  | object {ty : Ty} (h : ty.core = .object veil.type) : Reaches veil ty
  | member {ty memberTy : Ty} {type name : String} (h : ty.core = .object type)
      (hmember : veil.visible type name memberTy) (hreaches : Reaches veil memberTy) :
      Reaches veil ty
  | list {ty element : Ty} (h : ty.core = .list element) (hreaches : Reaches veil element) :
      Reaches veil ty
  | record {ty : Ty} {fields : Signature} {field : String × Ty} (h : ty.core = .record fields)
      (hfield : field ∈ fields) (hreaches : Reaches veil field.2) : Reaches veil ty

/-- No hidden member can be reached from values of the type. -/
def Clear (veil : Veil) (ty : Ty) : Prop :=
  ¬ veil.Reaches ty

variable {veil : Veil} {ty a b : Ty} {v w : Value}

/-- What is hidden at a type is hidden at it with `nullable` and without. -/
theorem Hides.of_core_eq (h : veil.Hides a v w) (hcore : a.core = b.core) : veil.Hides b v w := by
  cases h with
  | refl => exact .refl
  | list h hitems => exact .list (hcore ▸ h) hitems
  | object h hread hentries => exact .object (hcore ▸ h) hread hentries
  | record h hcells => exact .record (hcore ▸ h) hcells

/-- Values of a clear type are equal. -/
theorem Hides.eq_of_clear (h : veil.Hides ty v w) (hclear : veil.Clear ty) : v = w := by
  induction h with
  | refl => rfl
  | list h _ ih =>
    have heq := List.map_congr_left fun pair hpair =>
      ih pair hpair fun hreaches => hclear (.list h hreaches)
    exact congrArg Value.list heq
  | @object _ type label entries h hread hentries ih =>
    have heq : ∀ entry ∈ entries, (entry.1, entry.2.1) = (entry.1, entry.2.2) := by
      intro entry hentry
      by_contra hne
      have hvalue : entry.2.1 ≠ entry.2.2 := fun hvalue => hne (by rw [hvalue])
      rcases hread entry hentry hvalue with ⟨rfl, _⟩ | ⟨memberTy, hmember⟩
      · exact hclear (.object h)
      · exact hvalue (ih entry hentry memberTy hmember
          fun hreaches => hclear (.member h hmember hreaches))
    exact congrArg (Value.object label) (List.map_congr_left heq)
  | @record _ cells h _ ih =>
    have heq := List.map_congr_left fun cell hcell =>
      ih cell hcell fun hreaches =>
        hclear (.record h (List.mem_map.mpr ⟨cell, hcell, rfl⟩) hreaches)
    exact congrArg (Value.record (cells.map Prod.fst)) heq

/-- From scalars nothing is reached. -/
theorem clear_of_isScalar (h : ty.isScalar = true) : veil.Clear ty := by
  intro hreaches
  unfold Ty.isScalar at h
  cases hreaches with
  | object hcore | member hcore _ _ | list hcore _ | record hcore _ _ =>
    rw [hcore] at h
    cases h

/-- A type of lists is clear if that of their elements is. -/
theorem Clear.list {element : Ty} (h : veil.Clear element) (hcore : ty.core = .list element) :
    veil.Clear ty := by
  intro hreaches
  cases hreaches with
  | list hlist hreaches =>
    cases hcore.symm.trans hlist
    exact h hreaches
  | object hother | member hother _ _ | record hother _ _ =>
    exact absurd (hcore.symm.trans hother) nofun

/-- A type of records is clear if those of the fields are. -/
theorem Clear.record {fields : Signature} (h : ∀ field ∈ fields, veil.Clear field.2)
    (hcore : ty.core = .record fields) : veil.Clear ty := by
  intro hreaches
  cases hreaches with
  | record hrecord hfield hreaches =>
    cases hcore.symm.trans hrecord
    exact h _ hfield hreaches
  | object hother | member hother _ _ | list hother _ =>
    exact absurd (hcore.symm.trans hother) nofun

/-- Outcomes that differ behind the veil at a clear type are the same. -/
theorem eq_of_clear {outcome other : Except RunFault Value}
    (h : Parallel (veil.Hides ty) outcome other) (hclear : veil.Clear ty) : outcome = other := by
  cases h with
  | ok h => rw [h.eq_of_clear hclear]
  | error fault => rfl

/-- Whether a value is `null` is not hidden. -/
theorem Hides.isNull_eq (h : veil.Hides ty v w) : v.isNull = w.isNull := by
  cases h <;> rfl

/-- Lists of a type differ in nothing but hidden members if their items do. -/
theorem Hides.of_items {element : Ty} {items others : List Value}
    (h : List.Forall₂ (veil.Hides element) items others) (hcore : ty.core = .list element) :
    veil.Hides ty (.list items) (.list others) := by
  obtain ⟨pairs, rfl, rfl, hpairs⟩ := exists_pairs_of_forall₂ h
  exact .list hcore hpairs

/-- Lists hide what their items do. -/
theorem hides_items_of_pairs {pairs : List (Value × Value)}
    (h : ∀ pair ∈ pairs, veil.Hides ty pair.1 pair.2) :
    List.Forall₂ (veil.Hides ty) (pairs.map Prod.fst) (pairs.map Prod.snd) := by
  rw [List.forall₂_map_left_iff, List.forall₂_map_right_iff]
  exact List.forall₂_same.mpr h

/-- The items of values of a list type differ in nothing but hidden members. -/
theorem Hides.sequence {element : Ty} (h : veil.Hides ty v w) (hcore : ty.core = .list element) :
    Parallel (Option.Rel (List.Forall₂ (veil.Hides element))) v.sequence w.sequence := by
  cases h with
  | refl =>
    refine .refl (fun items? => ?_) _
    cases items? with
    | none => exact .none
    | some items => exact .some (List.forall₂_same.mpr fun _ _ => .refl)
  | list hlist hitems =>
    cases hcore.symm.trans hlist
    exact .ok (.some (hides_items_of_pairs hitems))
  | object hobject _ _ => exact absurd (hcore.symm.trans hobject) nofun
  | record hrecord _ => exact absurd (hcore.symm.trans hrecord) nofun

/-- The same entry is found in both objects. -/
theorem find?_entries (entries : List (String × Value × Value)) (name : String) :
    (Entries.find? (entries.map fun entry => (entry.1, entry.2.1)) name = none ∧
        Entries.find? (entries.map fun entry => (entry.1, entry.2.2)) name = none) ∨
      ∃ entry ∈ entries, entry.1 = name ∧
        Entries.find? (entries.map fun entry => (entry.1, entry.2.1)) name = some entry.2.1 ∧
        Entries.find? (entries.map fun entry => (entry.1, entry.2.2)) name = some entry.2.2 := by
  induction entries with
  | nil => exact Or.inl ⟨rfl, rfl⟩
  | cons entry rest ih =>
    rw [List.map_cons, List.map_cons, Entries.find?_cons, Entries.find?_cons]
    by_cases hname : name = entry.1
    · rw [if_pos hname, if_pos hname]
      exact Or.inr ⟨entry, List.mem_cons_self, hname.symm, rfl, rfl⟩
    · rw [if_neg hname, if_neg hname]
      refine ih.imp_right ?_
      rintro ⟨found, hfound, h⟩
      exact ⟨found, List.mem_cons_of_mem _ hfound, h⟩

/-- A visible member of values that differ in nothing but hidden members does so, too. -/
theorem Hides.readMember {object : Ty} {name : String} (h : veil.Hides object v w)
    (hmember : object.HasMember veil.visible name ty) :
    Parallel (veil.Hides ty) (v.readMember name) (w.readMember name) := by
  cases h with
  | refl => exact .refl (fun _ => .refl) _
  | list _ _ => exact .error _
  | @object _ type label entries hobject _ hentries =>
    simp only [Value.readMember]
    rcases find?_entries entries name with ⟨hv, hw⟩ | ⟨entry, hentry, rfl, hv, hw⟩
    · rw [hv, hw]
      exact .ok .refl
    · rw [hv, hw]
      exact .ok (hentries entry hentry ty (hmember.of_object hobject))
  | @record _ cells hrecord hcells =>
    simp only [Value.readMember, Value.fieldOf?]
    cases hindex : Signature.index? (cells.map Prod.fst) name with
    | none => exact .error _
    | some index =>
      obtain ⟨field, hfield, hty⟩ := Value.exists_field_of_index? hindex
      cases (hmember.of_record hrecord).symm.trans hty
      rw [List.getElem?_map] at hfield
      obtain ⟨cell, hcell, rfl⟩ := Option.map_eq_some_iff.mp hfield
      simp only [Option.bind_some, List.getElem?_map, hcell, Option.map_some]
      exact .ok (hcells cell (List.mem_of_getElem? hcell))

/-- Conversion between types that differ by `nullable` changes nothing. -/
theorem Hides.convert {source : Ty} (h : veil.Hides source v w) (hcore : source.core = ty.core) :
    Parallel (veil.Hides ty) (v.convert ty) (w.convert ty) := by
  have hboth := h.of_core_eq hcore
  have hconvert : ∀ value : Value, value.convertSome ty = value.convertSome source.core :=
    fun value => by rw [hcore, Value.convertSome_core]
  cases h with
  | refl => exact .refl (fun _ => .refl) _
  | list h _ =>
    simp only [Value.convert]
    rw [hconvert, hconvert, h]
    exact .ok hboth
  | object h _ _ =>
    simp only [Value.convert]
    rw [hconvert, hconvert, h]
    exact .ok hboth
  | record h _ =>
    simp only [Value.convert]
    rw [hconvert, hconvert, h]
    exact .ok hboth

end Veil

end TypedQuery
