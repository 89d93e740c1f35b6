import TypedQuery.Proofs.Schema.Sightings

/-!
# Schemas that describe their samples

A schema describes the sample from which it is made where the values under each member agree: they
are of one kind, item by item, or they were found to differ and the member is dynamic. They need not
agree. The dynamic type gives way to whatever is found next, also where it stands for values that
differ, and the type of integers gives way to that of decimals, while the integers stay integers.
-/

namespace TypedQuery

namespace Ty

/-- The dynamic type gives way to the one behind it. -/
@[simp] theorem any_unify (ty : Ty) : any.unify ty = ty := by
  cases ty <;> rfl

/-- The dynamic type gives way to the one before it. -/
@[simp] theorem unify_any (ty : Ty) : ty.unify any = ty := by
  cases ty <;> rfl

/-- A type joined with itself stays what it is. -/
@[simp] theorem unify_self : (ty : Ty) → ty.unify ty = ty
  | list element => by
    unfold unify
    rw [unify_self element]
  | any | null | boolean | int _ | float | decimal | string | guid | dateTime | enum _ | object _
  | record _ | nullable _ => by simp [unify]

/-- The common type of types that are not nullable is not nullable. -/
theorem core_unify {a b : Ty} (ha : a.core = a) (hb : b.core = b) :
    (a.unify b).core = a.unify b := by
  unfold unify
  split
  · exact hb
  · exact ha
  · split
    · rfl
    · rfl
  · rfl
  · rfl
  · rfl
  · split
    · exact ha
    · rfl

end Ty

namespace Json

/-! ### Common types -/

/-- A type that comes from joining the types of samples in their order. -/
inductive Gathered (type : String) : List Json → Ty → Prop
  | nil : Gathered type [] .any
  | one (json : Json) : Gathered type [json] (json.sampledTy type)
  | join {first rest : List Json} {a b : Ty} (hfirst : Gathered type first a)
      (hrest : Gathered type rest b) : Gathered type (first ++ rest) (a.unify b)

variable {type : String} {ty shared : Ty} {samples before : List Json}

/-- The common type of samples comes from joining theirs to those before them. -/
theorem Gathered.commonTy? {found? : Option Ty}
    (hbefore : Gathered type before (found?.getD .any)) :
    Gathered type (before ++ samples) ((commonTy? type found? samples).getD .any) := by
  induction samples generalizing before found? with
  | nil =>
    rw [List.append_nil]
    exact hbefore
  | cons item rest ih =>
    have hitem := hbefore.join (.one item)
    have hjoined : (found?.getD .any).unify (item.sampledTy type) =
        Ty.joined found? (item.sampledTy type) := by
      cases found? with
      | none => exact Ty.any_unify _
      | some previous => rfl
    rw [hjoined] at hitem
    rw [List.append_cons]
    exact ih hitem

/-- The type that is found for samples comes from joining their types. -/
theorem gathered_commonTy? (type : String) (samples : List Json) :
    Gathered type samples ((Json.commonTy? type none samples).getD .any) :=
  @Gathered.commonTy? type samples [] none .nil

/-- A number with a fraction is taken for a decimal, or else for a float. -/
theorem infer_float (x : Float) :
    (∃ d, Number.infer (.float x) = (.decimal, .decimal d)) ∨
      Number.infer (.float x) = (.float, .float x) := by
  unfold Number.infer
  dsimp only
  split
  · exact .inl ⟨_, rfl⟩
  · exact .inr rfl

/-- The type of a number is without `nullable`. -/
theorem core_infer (n : Json.Number) : n.infer.1.core = n.infer.1 := by
  cases n with
  | natural n =>
    unfold Number.infer
    dsimp only
    split
    · rfl
    · rfl
  | negative n => rfl
  | float x =>
    rcases infer_float x with ⟨d, hx⟩ | hx
    · rw [hx]
      rfl
    · rw [hx]
      rfl

/-- Types of samples are not nullable. -/
theorem core_sampledTy (type : String) (json : Json) :
    (json.sampledTy type).core = json.sampledTy type := by
  cases json with
  | number n => exact core_infer n
  | null | bool _ | string _ | array _ | object _ => rfl

/-- Types that come from joining are without `nullable`. -/
theorem Gathered.core (h : Gathered type samples ty) : ty.core = ty := by
  induction h with
  | nil => rfl
  | one json => exact core_sampledTy type json
  | join _ _ ihfirst ihrest => exact Ty.core_unify ihfirst ihrest

/-- Samples of one type have this type, if there are any besides `null`. -/
theorem Gathered.eq_shared (h : Gathered type samples ty)
    (hshared : ∀ json ∈ samples, json = .null ∨ json.sampledTy type = shared) :
    ty = .any ∨ ty = shared := by
  induction h with
  | nil => exact .inl rfl
  | one json =>
    rcases hshared json (List.mem_singleton_self json) with rfl | hty
    · exact .inl rfl
    · exact .inr hty
  | join _ _ ihfirst ihrest =>
    rw [List.forall_mem_append] at hshared
    rcases ihfirst hshared.1 with rfl | rfl
    · rw [Ty.any_unify]
      exact ihrest hshared.2
    · rcases ihrest hshared.2 with rfl | rfl
      · exact .inr (Ty.unify_any _)
      · exact .inr (Ty.unify_self _)

/-- The items of an array. -/
def itemsOf (json : Json) : List Json :=
  json.items?.getD []

/-- The type of arrays is that of lists of what is found for all their items together. -/
theorem Gathered.items (h : Gathered type samples ty)
    (harrays : ∀ json ∈ samples, json = .null ∨ ∃ items, json = .array items) :
    ty = .any ∧ samples.flatMap itemsOf = [] ∨
      ∃ element, ty = .list element ∧ Gathered type (samples.flatMap itemsOf) element := by
  induction h with
  | nil => exact .inl ⟨rfl, rfl⟩
  | one json =>
    rcases harrays json (List.mem_singleton_self json) with rfl | ⟨items, rfl⟩
    · exact .inl ⟨rfl, rfl⟩
    · refine .inr ⟨_, rfl, ?_⟩
      rw [List.flatMap_singleton]
      exact gathered_commonTy? type items
  | join _ _ ihfirst ihrest =>
    rw [List.forall_mem_append] at harrays
    rw [List.flatMap_append]
    rcases ihfirst harrays.1 with ⟨rfl, hnil⟩ | ⟨a, rfl, ha⟩
    · rw [hnil, Ty.any_unify]
      exact ihrest harrays.2
    · rcases ihrest harrays.2 with ⟨rfl, hnil⟩ | ⟨b, rfl, hb⟩
      · rw [hnil, List.append_nil]
        exact .inr ⟨a, Ty.unify_any _, ha⟩
      · exact .inr ⟨a.unify b, rfl, ha.join hb⟩

/-! ### Agreement -/

/-- Values that stand in one place agree at its type. They are of one kind, which is no list, or
integers in the range of an integer type, or lists with items that agree at the element type; if
they are not, the type is dynamic. `null` agrees with everything. -/
inductive Agree (type : String) : Ty → List Json → Prop
  | any {samples : List Json} : Agree type .any samples
  | same {ty shared : Ty} {samples : List Json} (hshared : shared.element? = none)
      (hsame : ∀ json ∈ samples, json = .null ∨ json.sampledTy type = shared) :
      Agree type ty samples
  | integers {kind : IntKind} {samples : List Json}
      (hintegers : ∀ json ∈ samples,
        json = .null ∨ ∃ n, json.integer? = some n ∧ kind.fits n = true) :
      Agree type (.int kind) samples
  | arrays {element : Ty} {samples : List Json}
      (harrays : ∀ json ∈ samples, json = .null ∨ ∃ items, json = .array items)
      (hitems : Agree type element (samples.flatMap itemsOf)) :
      Agree type (.list element) samples

/-- A value stands in another one, which is the value itself or an array. -/
inductive Holds : Json → Json → Prop
  | self (json : Json) : Holds json json
  | item {items : List Json} {item inner : Json} (hitem : item ∈ items) (h : Holds item inner) :
      Holds (.array items) inner

section Conforming

variable {members : Members}

/-- The types of samples that have no parts, besides those of integers. -/
def scalarTys : List Ty := [.boolean, .float, .decimal, .string]

/-- A number without a sign is taken for the integer that it is. -/
theorem infer_natural (n : UInt64) : (Number.natural n).infer.2 = .ofUInt64 n := by
  unfold Number.infer
  dsimp only
  split
  · rfl
  · rename_i hlarge
    unfold Value.ofUInt64
    rw [if_neg hlarge]

/-- A natural number is an integer in the ranges in which it is. -/
theorem conforms_ofUInt64 {n : UInt64} {ty : Ty} :
    (Value.ofUInt64 n).Conforms members ty ↔
      ty.core = .any ∨ ∃ kind, ty.core = .int kind ∧ kind.fits n.toNat = true := by
  unfold Value.ofUInt64
  split
  · rename_i hsmall
    have hvalue : (Int64.ofInt n.toNat).toInt = n.toNat :=
      IntKind.toInt_ofInt (IntKind.fits_natCast.mpr hsmall)
    constructor
    · intro h
      cases h with
      | any h => exact .inl h
      | int h hfits =>
        rw [hvalue] at hfits
        exact .inr ⟨_, h, hfits⟩
    · rintro (h | ⟨kind, h, hfits⟩)
      · exact .any h
      · refine .int h ?_
        rw [hvalue]
        exact hfits
  · constructor
    · intro h
      cases h with
      | any h => exact .inl h
      | uint h hfits => exact .inr ⟨_, h, hfits⟩
    · rintro (h | ⟨kind, h, hfits⟩)
      · exact .any h
      · exact .uint h hfits

/-- An integer of a sample conforms to the types of integers in whose range it is. -/
theorem conforms_integer {json : Json} {n : Int} {kind : IntKind} (hn : json.integer? = some n)
    (hfits : kind.fits n = true) : (json.sampled type).Conforms members (.int kind) := by
  unfold integer? at hn
  split at hn
  · cases hn
    unfold sampled
    rw [infer_natural]
    exact conforms_ofUInt64.mpr (.inr ⟨kind, rfl, hfits⟩)
  · cases hn
    exact .int rfl hfits
  · cases hn

/-- A number conforms to its own type. -/
theorem conforms_number (n : Json.Number) : n.infer.2.Conforms members n.infer.1 := by
  cases n with
  | natural n =>
    rw [infer_natural, conforms_ofUInt64]
    unfold Number.infer
    dsimp only
    split
    · rename_i hsmall
      exact .inr ⟨.i64, rfl, IntKind.fits_natCast.mpr hsmall⟩
    · have hlimit : n.toNat < powerOfTwo 64 := n.toNat_lt
      refine .inr ⟨.u64, rfl, IntKind.fits_iff.mpr ?_⟩
      change (0 : Int) ≤ n.toNat ∧ (n.toNat : Int) ≤ powerOfTwo 64 - 1
      omega
  | negative n => exact .int rfl (IntKind.fits_toInt n)
  | float x =>
    rcases infer_float x with ⟨d, hx⟩ | hx
    · rw [hx]
      exact .decimal rfl
    · rw [hx]
      exact .float rfl

/-- A value that agrees with all others in its place conforms to their common type, if the objects
in it conform. -/
theorem Agree.conforms (hagree : Agree type ty samples) (hgathered : Gathered type samples ty)
    {json : Json} (hjson : json ∈ samples)
    (hobjects : ∀ inner, json.Holds (.object inner) →
      ((Json.object inner).sampled type).Conforms members (.object type)) :
    (json.sampled type).Conforms members ty := by
  induction hagree generalizing json with
  | any => exact .any rfl
  | same hshared hsame =>
    rcases hsame json hjson with rfl | hty
    · exact .null
    · rcases hgathered.eq_shared hsame with rfl | rfl
      · exact .any rfl
      · rw [← hty] at hshared ⊢
        cases json with
        | null => exact .null
        | bool b => exact .boolean rfl
        | number n => exact conforms_number n
        | string s => exact .text rfl
        | array items => cases hshared
        | object inner => exact hobjects inner (.self _)
  | integers hintegers =>
    rcases hintegers json hjson with rfl | ⟨n, hn, hfits⟩
    · exact .null
    · exact conforms_integer hn hfits
  | arrays harrays _ ih =>
    rcases harrays json hjson with rfl | ⟨items, rfl⟩
    · exact .null
    · rcases hgathered.items harrays with ⟨hany, -⟩ | ⟨element, helement, hinner⟩
      · cases hany
      · cases helement
        refine .list rfl fun value hvalue => ?_
        rw [sampledItems_eq] at hvalue
        obtain ⟨item, hitem, rfl⟩ := List.mem_map.mp hvalue
        exact ih hinner (List.mem_flatMap.mpr ⟨_, hjson, hitem⟩) fun inner hholds =>
          hobjects inner (.item hitem hholds)

/-- What a value is that conforms to a type other than the dynamic one. -/
inductive Shape (type : String) (ty : Ty) (json : Json) : Prop
  | null (h : json = .null)
  | integer {kind : IntKind} {n : Int} (hty : ty = .int kind) (hn : json.integer? = some n)
      (hfits : kind.fits n = true)
  | array {element : Ty} {items : List Json} (hty : ty = .list element) (h : json = .array items)
  | object {name : String} (hty : ty = .object name) (h : json.sampledTy type = .object type)
  | scalar (hty : ty ∈ scalarTys) (h : json.sampledTy type = ty)

/-- A value that conforms to its own type, which has no parts. -/
theorem Shape.of_scalar {json : Json} (hcore : ty.core = ty) (h : ty.core = json.sampledTy type)
    (hscalar : json.sampledTy type ∈ scalarTys) : Shape type ty json := by
  have hty : ty = json.sampledTy type := hcore.symm.trans h
  exact .scalar (hty ▸ hscalar) hty.symm

/-- A number that conforms to a type has a shape at it. -/
theorem shape_number {n : Json.Number} (hcore : ty.core = ty) (hany : ty.core ≠ .any)
    (h : n.infer.2.Conforms members ty) : Shape type ty (.number n) := by
  cases n with
  | natural n =>
    rw [infer_natural, conforms_ofUInt64] at h
    obtain ⟨kind, h, hfits⟩ := h.resolve_left hany
    exact .integer (hcore.symm.trans h) rfl hfits
  | negative n =>
    cases h with
    | any h => exact absurd h hany
    | int h hfits => exact .integer (hcore.symm.trans h) rfl hfits
  | float x =>
    have hty : (Json.number (.float x)).sampledTy type = (Number.infer (.float x)).1 := rfl
    rcases infer_float x with ⟨d, hx⟩ | hx
    · rw [hx] at h hty
      have hscalar : Ty.decimal ∈ scalarTys := by decide
      cases h with
      | any h => exact absurd h hany
      | decimal h => exact .of_scalar hcore (h.trans hty.symm) (hty ▸ hscalar)
    · rw [hx] at h hty
      have hscalar : Ty.float ∈ scalarTys := by decide
      cases h with
      | any h => exact absurd h hany
      | float h => exact .of_scalar hcore (h.trans hty.symm) (hty ▸ hscalar)

/-- What conforms to a type has a shape at it. -/
theorem shape_of_conforms {json : Json} (hcore : ty.core = ty) (hany : ty ≠ .any)
    (h : (json.sampled type).Conforms members ty) : Shape type ty json := by
  have hdynamic : ty.core ≠ .any := by rwa [hcore]
  cases json with
  | null => exact .null rfl
  | bool b =>
    cases h with
    | any h => exact absurd h hdynamic
    | boolean h => exact .of_scalar hcore h (show Ty.boolean ∈ scalarTys by decide)
  | string s =>
    cases h with
    | any h => exact absurd h hdynamic
    | text h => exact .of_scalar hcore h (show Ty.string ∈ scalarTys by decide)
  | array items =>
    cases h with
    | any h => exact absurd h hdynamic
    | list h => exact .array (hcore.symm.trans h) rfl
  | object inner =>
    cases h with
    | any h => exact absurd h hdynamic
    | object h => exact .object (hcore.symm.trans h) rfl
  | number n => exact shape_number hcore hdynamic h

/-- Values that conform to a type without parts are of this type. -/
theorem agree_of_scalars (hcore : ty.core = ty) (hany : ty ≠ .any)
    (hinteger : ∀ kind, ty ≠ .int kind) (hlist : ∀ element, ty ≠ .list element)
    (hobject : ∀ name, ty ≠ .object name)
    (hconforms : ∀ json ∈ samples, (json.sampled type).Conforms members ty) :
    Agree type ty samples := by
  have hshared : ty.element? = none := by
    cases h : ty.element? with
    | none => rfl
    | some element => exact absurd (Ty.eq_list_of_element? h) (hlist element)
  refine .same hshared fun json hjson => ?_
  cases shape_of_conforms hcore hany (hconforms json hjson) with
  | null h => exact .inl h
  | integer hty => exact absurd hty (hinteger _)
  | array hty => exact absurd hty (hlist _)
  | object hty => exact absurd hty (hobject _)
  | scalar _ h => exact .inr h

/-- Values that conform to a type of lists are arrays. -/
theorem arrays_of_conforms {element : Ty}
    (hconforms : ∀ json ∈ samples, (json.sampled type).Conforms members (.list element)) :
    ∀ json ∈ samples, json = .null ∨ ∃ items, json = .array items := by
  intro json hjson
  cases shape_of_conforms rfl Ty.noConfusion (hconforms json hjson) with
  | null h => exact .inl h
  | array _ h => exact .inr ⟨_, h⟩
  | integer hty => cases hty
  | object hty => cases hty
  | scalar hty => exact absurd hty (by simp [scalarTys])

/-- Values that conform to their common type agree. -/
theorem agree_of_conforms : (ty : Ty) → {samples : List Json} → Gathered type samples ty →
    (∀ json ∈ samples, (json.sampled type).Conforms members ty) → Agree type ty samples
  | .any, _, _, _ => .any
  | .list element, samples, hgathered, hconforms => by
    have harrays := arrays_of_conforms hconforms
    rcases hgathered.items harrays with ⟨hany, -⟩ | ⟨_, helement, hinner⟩
    · cases hany
    · cases helement
      refine .arrays harrays (agree_of_conforms element hinner fun item hitem => ?_)
      obtain ⟨json, hjson, hitem⟩ := List.mem_flatMap.mp hitem
      rcases harrays json hjson with rfl | ⟨items, rfl⟩
      · cases hitem
      · have hitems := (hconforms _ hjson).item
        rw [sampledItems_eq] at hitems
        exact hitems _ (List.mem_map_of_mem hitem)
  | .int kind, samples, _, hconforms => by
    refine .integers fun json hjson => ?_
    cases shape_of_conforms rfl Ty.noConfusion (hconforms json hjson) with
    | null h => exact .inl h
    | integer hty hn hfits =>
      cases hty
      exact .inr ⟨_, hn, hfits⟩
    | array hty => cases hty
    | object hty => cases hty
    | scalar hty => exact absurd hty (by simp [scalarTys])
  | .object name, samples, _, hconforms => by
    have hsame : ∀ json ∈ samples, json = .null ∨ json.sampledTy type = .object type := by
      intro json hjson
      cases shape_of_conforms rfl Ty.noConfusion (hconforms json hjson) with
      | null h => exact .inl h
      | object _ h => exact .inr h
      | integer hty => cases hty
      | array hty => cases hty
      | scalar hty => exact absurd hty (by simp [scalarTys])
    exact .same rfl hsame
  | .nullable inner, _, hgathered, _ => absurd hgathered.core (Ty.core_ne_nullable inner inner)
  | .null, _, _, h | .boolean, _, _, h | .float, _, _, h | .decimal, _, _, h | .string, _, _, h
  | .guid, _, _, h | .dateTime, _, _, h | .enum _, _, _, h | .record _, _, _, h =>
    agree_of_scalars rfl nofun nofun nofun nofun h

end Conforming

/-- What stands in an object in a value is seen in the value. -/
theorem Holds.mem_sightings {json : Json} {inner : List (String × Json)}
    (h : json.Holds (.object inner)) {name : String} {value : Json} (hmem : (name, value) ∈ inner) :
    (⟨type, name, value⟩ : Sighting) ∈ json.sightings type := by
  generalize hobject : Json.object inner = object at h
  induction h with
  | self json =>
    subst hobject
    exact mem_memberSightings hmem
  | item hitem _ ih => exact subset_itemSightings hitem (ih hobject)

/-- The members of an object that stands in a sample are smaller than the sample. -/
theorem Holds.sizeOf_lt {json : Json} {inner : List (String × Json)}
    (h : json.Holds (.object inner)) {name : String} {value : Json} (hmem : (name, value) ∈ inner) :
    sizeOf value < sizeOf json := by
  generalize hobject : Json.object inner = object at h
  induction h with
  | self json =>
    subst hobject
    have hless := List.sizeOf_lt_of_mem hmem
    simp only [Prod.mk.sizeOf_spec, Json.object.sizeOf_spec] at hless ⊢
    omega
  | item hitem _ ih =>
    have hless := List.sizeOf_lt_of_mem hitem
    have hinner := ih hobject
    simp only [Json.array.sizeOf_spec]
    omega

/-- An object conforms to its type if its members conform to those of the type. -/
theorem conforms_object {members : Members} {inner : List (String × Json)}
    (h : ∀ name value, (name, value) ∈ inner → ∀ ty, members type name ty →
      (value.sampled (typeNameOf name)).Conforms members ty) :
    ((Json.object inner).sampled type).Conforms members (.object type) := by
  refine .object rfl fun host ty value hmember hvalue => ?_
  have hmem := Entries.mem_of_mem_ofList (Entries.mem_of_find? hvalue)
  rw [sampledMembers_eq] at hmem
  obtain ⟨⟨name, json⟩, hjson, heq⟩ := List.mem_map.mp hmem
  cases heq
  exact h _ json hjson ty hmember

end Json

namespace Schema

/-- The values that were seen in a sample agree at the types which the schema has for them. -/
def Agrees (schema : Schema) (seen : List Sighting) : Prop :=
  ∀ type member ty, schema.members type member ty →
    Json.Agree (typeNameOf member) ty (seenAt seen type member)

/-- The values that were seen in a sample conform to the types which the schema has for them. -/
def Describes (schema : Schema) (seen : List Sighting) : Prop :=
  ∀ type member ty, schema.members type member ty → ∀ json ∈ seenAt seen type member,
    (json.sampled (typeNameOf member)).Conforms schema.members ty

/-- The types that the schema has for the values that were seen come from joining theirs. -/
def Gathers (schema : Schema) (seen : List Sighting) : Prop :=
  ∀ type member ty, schema.members type member ty →
    Json.Gathered (typeNameOf member) (seenAt seen type member) ty

variable {schema : Schema} {sample : Json} {root : String}

/-- Where the values of a sample agree, they conform to their types, whatever stands in them. -/
theorem Agrees.describes (hagrees : schema.Agrees (sample.sightings root))
    (hgathers : schema.Gathers (sample.sightings root)) :
    schema.Describes (sample.sightings root) := by
  intro type member ty hmember json
  -- The objects in a value have smaller values under their members.
  induction hsize : sizeOf json using Nat.strongRecOn generalizing type member ty json with
  | ind size ih =>
    intro hjson
    refine (hagrees type member ty hmember).conforms (hgathers type member ty hmember) hjson
      fun inner hholds => Json.conforms_object fun name value hvalue valueTy hvalueTy => ?_
    have hseen := Json.sightings_subset root sample (mem_seenAt.mp hjson)
      (hholds.mem_sightings hvalue)
    have hless := hholds.sizeOf_lt hvalue
    exact ih (sizeOf value) (hsize ▸ hless) (typeNameOf member) name valueTy hvalueTy value rfl
      (mem_seenAt.mpr hseen)

/-- Values agree where the schema describes them by types that come from joining theirs. -/
theorem Describes.agrees (hdescribes : schema.Describes (sample.sightings root))
    (hgathers : schema.Gathers (sample.sightings root)) :
    schema.Agrees (sample.sightings root) :=
  fun type member ty hmember => Json.agree_of_conforms ty (hgathers type member ty hmember)
    (hdescribes type member ty hmember)

/-- A sample that is an object conforms to its type if the schema describes what is in it. -/
theorem Describes.conforms {members : List (String × Json)}
    (h : schema.Describes ((Json.object members).sightings root)) :
    ((Json.object members).sampled root).Conforms schema.members (.object root) :=
  Json.conforms_object fun name value hvalue ty hty => h root name ty hty value
    (mem_seenAt.mpr (Json.mem_memberSightings hvalue))

end Schema

/-- The context of a sample conforms to its type in the schema of the sample. -/
def Schema.Fits (sample : Json) : Prop :=
  (Schema.ofSample sample).2.Conforms (Schema.ofSample sample).1.members
    (Schema.ofSample sample).1.contextTy

/-- What inference makes of a sample that is an object. The context is the value of the sample.
Every member that was seen has a field under its public name, which reads it, or another member of
the same public name. The type of a field is the common type of the values under its member, in the
order in which they were seen. The schema describes every object in the sample, at whatever depth,
exactly if the values under each member agree at the type of its field: they are of one kind, item
by item, or the type is dynamic. In that case the context conforms to its type. -/
theorem Schema.ofSample_describes (members : List (String × Json)) :
    let sample := Json.object members
    let seen := sample.sightings "Query"
    let schema := (Schema.ofSample sample).1
    (Schema.ofSample sample).2 = sample.sampled "Query" ∧
      (∀ sighting ∈ seen, ∃ field host,
        schema.field? sighting.type (Text.camelCase sighting.member) = some field ∧
          field.resolver = .member host ∧
          Text.camelCase host = Text.camelCase sighting.member ∧
          ∃ json, (⟨sighting.type, host, json⟩ : Sighting) ∈ seen) ∧
      (∀ type member ty, schema.members type member ty →
        Json.commonTy? (typeNameOf member) none (seenAt seen type member) = some ty) ∧
      (schema.Agrees seen ↔ schema.Describes seen) ∧
      (schema.Agrees seen → Schema.Fits sample) := by
  intro sample seen schema
  obtain ⟨sketch, hrun, hquery, hdistinct, hty⟩ := Json.exists_sketch members
  have heq : Schema.ofSample sample = (sketch.schema, sample.sampled "Query") :=
    Schema.ofSample_eq hrun hquery
  have hschema : schema = sketch.schema := congrArg Prod.fst heq
  have hcontext : (Schema.ofSample sample).2 = sample.sampled "Query" := congrArg Prod.snd heq
  have htypes : ∀ type member ty, schema.members type member ty →
      Json.commonTy? (typeNameOf member) none (seenAt seen type member) = some ty := by
    intro type member ty hmember
    rw [hschema] at hmember
    rw [← hty]
    exact Sketch.ty?_of_members hquery hdistinct hmember
  have hgathers : schema.Gathers seen := by
    intro type member ty hmember
    have hgathered := Json.gathered_commonTy? (typeNameOf member) (seenAt seen type member)
    rwa [htypes type member ty hmember] at hgathered
  refine ⟨hcontext, fun sighting hsighting => ?_, htypes,
    ⟨fun h => h.describes hgathers, fun h => h.agrees hgathers⟩, fun hagrees => ?_⟩
  · rw [hschema]
    exact Sketch.exists_field?_of_seen hquery hdistinct hty hsighting
  · unfold Schema.Fits
    rw [hcontext]
    exact (hagrees.describes hgathers).conforms

/-- A sample with integers in one list, and with values that differ in another one. -/
def agesSample (mixed : List Json) : Json :=
  .object [("ages", .array [.number (.natural 36), .null]), ("mixed", .array mixed)]

/-- A list of values that differ is dynamic. A third value gives it a type to which the first one
does not conform. -/
theorem Schema.ofSample_describes_ages :
    Schema.Fits (agesSample [.bool true, .string "a"]) ∧
      ¬Schema.Fits (agesSample [.bool true, .string "a", .string "b"]) := by
  constructor
  · let sample := agesSample [.bool true, .string "a"]
    let Agrees type (field : FieldDefinition) := ∀ member, field.resolver = .member member →
      Json.Agree (typeNameOf member) field.ty (seenAt (sample.sightings "Query") type member)
    have hages : Agrees "Query" (inferredField "ages" (.list (.int .i64))) := by
      rintro _ ⟨⟩
      have hsame : ∀ json ∈ [Json.number (.natural 36), .null],
          json = .null ∨ json.sampledTy (typeNameOf "ages") = .int .i64 :=
        List.forall_mem_cons.mpr ⟨.inr rfl, List.forall_mem_singleton.mpr (.inl rfl)⟩
      exact .arrays (List.forall_mem_singleton.mpr (.inr ⟨_, rfl⟩)) (.same rfl hsame)
    have hmixed : Agrees "Query" (inferredField "mixed" (.list .any)) := by
      rintro _ ⟨⟩
      exact .arrays (List.forall_mem_singleton.mpr (.inr ⟨_, rfl⟩)) .any
    have htypes : ∀ type ∈ (Schema.ofSample sample).1.types, ∀ field ∈ type.2.fields,
        Agrees type.1 field.2 :=
      List.forall_mem_singleton.mpr
        (List.forall_mem_cons.mpr ⟨hages, List.forall_mem_singleton.mpr hmixed⟩)
    refine (Schema.ofSample_describes _).2.2.2.2 fun type member ty hmember => ?_
    obtain ⟨name, field, hfield, hresolver, rfl⟩ := hmember
    exact @Schema.of_forall_fields _ (fun type _ field => Agrees type field) htypes _ _ _ hfield
      member hresolver
  · intro h
    cases h with
    | any h => cases h
    | object htype hmembers =>
      cases htype
      have hmixed := hmembers "mixed" (.list .string)
        (.list [.boolean true, .text "a", .text "b"])
        ⟨"mixed", inferredField "mixed" (.list .string), rfl, rfl, rfl⟩ rfl
      cases hmixed.item (.boolean true) List.mem_cons_self with
      | any h => cases h
      | boolean h => cases h

end TypedQuery
