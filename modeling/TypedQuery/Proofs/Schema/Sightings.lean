import TypedQuery.Proofs.Value.Conformance
import TypedQuery.Schema.Inference

/-!
# What a sample shows of its types

Inference goes through a sample once. It makes the value of the sample, and on the way it notes what
stands under the members of objects, each under the name of the type that the object gets. The type
of a field is that of the values which were noted for it, in their order.
-/

namespace TypedQuery

/-- The type of a value after those before it, if there are any. -/
def Ty.joined (found? : Option Ty) (ty : Ty) : Ty :=
  match found? with
  | some previous => previous.unify ty
  | none => ty

/-- A value under a member of an object of a type. -/
structure Sighting where
  type : String
  member : String
  json : Json

namespace Json

mutual

/-- The value of a sample, where objects have the given type name. -/
def sampled (type : String) : Json → Value
  | null => .null
  | bool b => .boolean b
  | number n => n.infer.2
  | string s => .text s
  | array items => .list (sampledItems type items)
  | object members => .object type (Entries.ofList (sampledMembers members))

/-- The values of items. -/
def sampledItems (type : String) : List Json → List Value
  | [] => []
  | item :: rest => sampled type item :: sampledItems type rest

/-- The values of members. -/
def sampledMembers : List (String × Json) → List (String × Value)
  | [] => []
  | (name, json) :: rest => (name, sampled (typeNameOf name) json) :: sampledMembers rest

end

mutual

/-- The type of a sample, where objects have the given type name. -/
def sampledTy (type : String) : Json → Ty
  | null => .any
  | bool _ => .boolean
  | number n => n.infer.1
  | string _ => .string
  | array items => .list ((commonTy? type none items).getD .any)
  | object _ => .object type

/-- The common type of samples and of what was found before them. -/
def commonTy? (type : String) (found? : Option Ty) : List Json → Option Ty
  | [] => found?
  | item :: rest => commonTy? type (some (Ty.joined found? (sampledTy type item))) rest

end

mutual

/-- What stands under the members of the objects in a sample, at any depth. -/
def sightings (type : String) : Json → List Sighting
  | null => []
  | bool _ => []
  | number _ => []
  | string _ => []
  | array items => itemSightings type items
  | object members => memberSightings type members

/-- What stands under the members of the objects in items. -/
def itemSightings (type : String) : List Json → List Sighting
  | [] => []
  | item :: rest => sightings type item ++ itemSightings type rest

/-- What stands under the members of an object of a type and in these members. -/
def memberSightings (type : String) : List (String × Json) → List Sighting
  | [] => []
  | (name, json) :: rest =>
    sightings (typeNameOf name) json ++ ⟨type, name, json⟩ :: memberSightings type rest

end

/-- Items are sampled one by one. -/
theorem sampledItems_eq (type : String) (items : List Json) :
    sampledItems type items = items.map (sampled type) := by
  induction items with
  | nil => rfl
  | cons item rest ih => exact congrArg (sampled type item :: ·) ih

/-- Members are sampled one by one, objects under a type that is named after the member. -/
theorem sampledMembers_eq (members : List (String × Json)) :
    sampledMembers members =
      members.map fun (name, json) => (name, sampled (typeNameOf name) json) := by
  induction members with
  | nil => rfl
  | cons member rest ih => exact congrArg (_ :: ·) ih

/-- A list with an item has a common type. -/
theorem exists_commonTy? (type : String) (first : Json) (rest : List Json) :
    ∃ ty, commonTy? type none (first :: rest) = some ty := by
  unfold commonTy?
  generalize Ty.joined none (sampledTy type first) = found
  induction rest generalizing found with
  | nil => exact ⟨found, rfl⟩
  | cons item others ih => exact ih _

/-- The common type of a list goes on from that of its first part. -/
theorem commonTy?_append (type : String) (found? : Option Ty) (first rest : List Json) :
    commonTy? type found? (first ++ rest) = commonTy? type (commonTy? type found? first) rest := by
  induction first generalizing found? with
  | nil => rfl
  | cons item others ih => exact ih _

end Json

/-- The values that were seen under a member of objects of a type, in their order. -/
def seenAt (seen : List Sighting) (type member : String) : List Json :=
  (seen.filter fun sighting => sighting.type = type ∧ sighting.member = member).map Sighting.json

/-- What is seen in two parts is seen in one after the other. -/
theorem seenAt_append (first rest : List Sighting) (type member : String) :
    seenAt (first ++ rest) type member = seenAt first type member ++ seenAt rest type member := by
  unfold seenAt
  rw [List.filter_append, List.map_append]

/-- A value is seen under a member where there is a sighting of it. -/
theorem mem_seenAt {seen : List Sighting} {type member : String} {json : Json} :
    json ∈ seenAt seen type member ↔ (⟨type, member, json⟩ : Sighting) ∈ seen := by
  unfold seenAt
  constructor
  · intro h
    obtain ⟨sighting, hmem, rfl⟩ := List.mem_map.mp h
    obtain ⟨hseen, hplace⟩ := List.mem_filter.mp hmem
    obtain ⟨rfl, rfl⟩ := of_decide_eq_true hplace
    exact hseen
  · intro h
    exact List.mem_map.mpr ⟨_, List.mem_filter.mpr ⟨h, decide_eq_true ⟨rfl, rfl⟩⟩, rfl⟩

namespace Json

variable {type : String} {sighting : Sighting}

/-- What is seen in an item is seen in the items. -/
theorem subset_itemSightings {items : List Json} {item : Json} (hitem : item ∈ items) :
    item.sightings type ⊆ itemSightings type items := by
  induction items with
  | nil => cases hitem
  | cons first rest ih =>
    rcases List.mem_cons.mp hitem with rfl | hitem
    · exact List.subset_append_left _ _
    · exact List.subset_append_of_subset_right _ (ih hitem)

/-- The value of a member is seen under it. -/
theorem mem_memberSightings {members : List (String × Json)} {name : String} {json : Json}
    (hmem : (name, json) ∈ members) :
    (⟨type, name, json⟩ : Sighting) ∈ memberSightings type members := by
  induction members with
  | nil => cases hmem
  | cons member rest ih =>
    rcases List.mem_cons.mp hmem with rfl | hmem
    · exact List.mem_append_right _ List.mem_cons_self
    · exact List.mem_append_right _ (List.mem_cons_of_mem _ (ih hmem))

mutual

/-- What is seen in a value that is seen in a sample is seen in the sample. -/
theorem sightings_subset (type : String) : (json : Json) → sighting ∈ json.sightings type →
    sighting.json.sightings (typeNameOf sighting.member) ⊆ json.sightings type
  | array items, h => itemSightings_subset type items h
  | object members, h => memberSightings_subset type members h

/-- What is seen within a value that was seen in items is seen in the items. -/
theorem itemSightings_subset (type : String) : (items : List Json) →
    sighting ∈ itemSightings type items →
    sighting.json.sightings (typeNameOf sighting.member) ⊆ itemSightings type items
  | item :: rest, h => by
    unfold itemSightings at h ⊢
    rcases List.mem_append.mp h with h | h
    · exact List.subset_append_of_subset_left _ (sightings_subset type item h)
    · exact List.subset_append_of_subset_right _ (itemSightings_subset type rest h)

/-- What is seen within a value that was seen in members is seen in the members. -/
theorem memberSightings_subset (type : String) : (members : List (String × Json)) →
    sighting ∈ memberSightings type members →
    sighting.json.sightings (typeNameOf sighting.member) ⊆ memberSightings type members
  | (name, json) :: rest, h => by
    unfold memberSightings at h ⊢
    rcases List.mem_append.mp h with h | h
    · exact List.subset_append_of_subset_left _ (sightings_subset (typeNameOf name) json h)
    · rcases List.mem_cons.mp h with rfl | h
      · exact List.subset_append_left _ _
      · exact List.subset_append_of_subset_right _
          (List.subset_cons_of_subset _ (memberSightings_subset type rest h))

end

end Json

/-! ### Notes -/

namespace Sketch

/-- The type that is noted for a member of objects of a type. -/
def ty? (sketch : Sketch) (type member : String) : Option Ty :=
  Entries.find? (sketch.fields type) member

/-- Types are noted under different names, and so are the members of each. -/
def Distinct (sketch : Sketch) : Prop :=
  (Entries.names sketch).Nodup ∧ ∀ type, (Entries.names (sketch.fields type)).Nodup

/-- A sketch comes from another one by noting what was seen. -/
structure Notes (before after : Sketch) (seen : List Sighting) : Prop where
  ty? : ∀ type member, after.ty? type member =
    Json.commonTy? (typeNameOf member) (before.ty? type member) (seenAt seen type member)
  distinct : before.Distinct → after.Distinct

variable {before between after : Sketch} {first rest : List Sighting} {type : String}

/-- Where nothing was seen, nothing is noted. -/
theorem Notes.refl (sketch : Sketch) : Notes sketch sketch [] :=
  ⟨fun _ _ => rfl, id⟩

/-- What is noted in two goes was seen in one after the other. -/
theorem Notes.trans (hfirst : Notes before between first) (hrest : Notes between after rest) :
    Notes before after (first ++ rest) where
  ty? type member := by
    rw [hrest.ty?, hfirst.ty?, seenAt_append, Json.commonTy?_append]
  distinct h := hrest.distinct (hfirst.distinct h)

/-- Noting the fields of a type leaves those of the others. -/
@[simp] theorem fields_insert (sketch : Sketch) (fields : Entries Ty) (other : String) :
    Sketch.fields (Entries.insert sketch type fields) other =
      if other = type then fields else sketch.fields other := by
  unfold Sketch.fields
  rw [Entries.find?_insert]
  split
  · rfl
  · rfl

/-- Noting a type with distinct members keeps the names in a sketch distinct. -/
theorem Distinct.insert {sketch : Sketch} {fields : Entries Ty} (h : sketch.Distinct)
    (hfields : (Entries.names fields).Nodup) :
    Sketch.Distinct (Entries.insert sketch type fields) := by
  refine ⟨Entries.nodup_names_insert h.1, fun other => ?_⟩
  rw [fields_insert]
  split
  · exact hfields
  · exact h.2 other

/-- That a type is there says nothing about its fields. -/
theorem notes_declare (sketch : Sketch) (type : String) :
    Notes sketch (sketch.declare type) [] where
  ty? other member := by
    unfold Sketch.ty? declare
    rw [fields_insert]
    split
    · rename_i heq
      rw [heq]
      rfl
    · rfl
  distinct h := h.insert (h.2 type)

/-- The type of a field is joined with what is noted of it. -/
theorem notes_addField (sketch : Sketch) (type member : String) (json : Json) :
    Notes sketch (sketch.addField type member (json.sampledTy (typeNameOf member)))
      [⟨type, member, json⟩] where
  ty? other name := by
    unfold Sketch.ty? addField
    dsimp only
    rw [fields_insert]
    split
    · rename_i hother
      subst hother
      rw [Entries.find?_replace]
      split
      · rename_i hname
        subst hname
        have hseen : seenAt [⟨other, name, json⟩] other name = [json] := by simp [seenAt]
        rw [hseen]
        rfl
      · rename_i hname
        have hseen : seenAt [⟨other, member, json⟩] other name = [] := by
          simp [seenAt, Ne.symm hname]
        rw [hseen]
        rfl
    · rename_i hother
      have hseen : seenAt [⟨type, member, json⟩] other name = [] := by
        simp [seenAt, Ne.symm hother]
      rw [hseen]
      rfl
  distinct h := h.insert (Entries.nodup_names_replace (h.2 type))

end Sketch

namespace Json

mutual

/-- Inference gives the value and the type of a sample, and notes what it sees on the way. -/
theorem run_infer (type : String) : (json : Json) → (sketch : Sketch) →
    ∃ after, (infer type json).run sketch = ((json.sampledTy type, json.sampled type), after) ∧
      sketch.Notes after (json.sightings type)
  | null, sketch => ⟨sketch, rfl, .refl sketch⟩
  | bool _, sketch => ⟨sketch, rfl, .refl sketch⟩
  | number _, sketch => ⟨sketch, rfl, .refl sketch⟩
  | string _, sketch => ⟨sketch, rfl, .refl sketch⟩
  | array items, sketch => by
    obtain ⟨after, hrun, hnotes⟩ := run_inferItems type items none sketch
    refine ⟨after, ?_, hnotes⟩
    unfold infer
    rw [StateT.run_bind, hrun]
    rfl
  | object members, sketch => by
    obtain ⟨after, hrun, hnotes⟩ := run_inferMembers type members sketch
    refine ⟨after.declare type, ?_, ?_⟩
    · unfold infer
      rw [StateT.run_bind, hrun]
      rfl
    · have hdeclare := hnotes.trans (after.notes_declare type)
      rwa [List.append_nil] at hdeclare

/-- Inference from items samples them, finds their common type and notes what is seen in them. -/
theorem run_inferItems (type : String) : (items : List Json) → (found? : Option Ty) →
    (sketch : Sketch) → ∃ after, (inferItems type found? items).run sketch =
        ((commonTy? type found? items, sampledItems type items), after) ∧
      sketch.Notes after (itemSightings type items)
  | [], _, sketch => ⟨sketch, rfl, .refl sketch⟩
  | item :: rest, found?, sketch => by
    obtain ⟨between, hitem, hfirst⟩ := run_infer type item sketch
    obtain ⟨after, hitems, hrest⟩ := run_inferItems type rest
      (some (Ty.joined found? (item.sampledTy type))) between
    refine ⟨after, ?_, hfirst.trans hrest⟩
    unfold inferItems
    rw [StateT.run_bind, hitem]
    change (inferItems type (some (Ty.joined found? (item.sampledTy type))) rest >>=
      fun found => pure (found.1, item.sampled type :: found.2)).run between = _
    rw [StateT.run_bind, hitems]
    rfl

/-- Inference from members samples them and notes what is seen in them. -/
theorem run_inferMembers (type : String) : (members : List (String × Json)) →
    (sketch : Sketch) → ∃ after, (inferMembers type members).run sketch =
        (sampledMembers members, after) ∧
      sketch.Notes after (memberSightings type members)
  | [], sketch => ⟨sketch, rfl, .refl sketch⟩
  | (name, json) :: rest, sketch => by
    obtain ⟨between, hjson, hfirst⟩ := run_infer (typeNameOf name) json sketch
    let noted := between.addField type name (json.sampledTy (typeNameOf name))
    obtain ⟨after, hmembers, hrest⟩ := run_inferMembers type rest noted
    refine ⟨after, ?_, ?_⟩
    · unfold inferMembers
      rw [StateT.run_bind, hjson]
      change (inferMembers type rest >>=
        fun values => pure ((name, json.sampled (typeNameOf name)) :: values)).run noted = _
      rw [StateT.run_bind, hmembers]
      rfl
    · exact hfirst.trans ((between.notes_addField type name json).trans hrest)

end

/-- A sample that is an object is noted under the name of its type. -/
theorem exists_sketch (members : List (String × Json)) :
    ∃ sketch : Sketch, ((object members).infer "Query").run [] =
        ((.object "Query", (object members).sampled "Query"), sketch) ∧
      Entries.contains sketch "Query" = true ∧ sketch.Distinct ∧
      ∀ type member, sketch.ty? type member =
        commonTy? (typeNameOf member) none
          (seenAt ((object members).sightings "Query") type member) := by
  obtain ⟨after, hrun, hnotes⟩ := run_inferMembers "Query" members []
  have hdeclared := hnotes.trans (after.notes_declare "Query")
  rw [List.append_nil] at hdeclared
  refine ⟨after.declare "Query", ?_, ?_, ?_, hdeclared.ty?⟩
  · unfold infer
    rw [StateT.run_bind, hrun]
    rfl
  · unfold Sketch.declare Entries.contains
    rw [Entries.find?_insert, if_pos rfl]
    rfl
  · exact hdeclared.distinct ⟨List.nodup_nil, fun _ => List.nodup_nil⟩

end Json

/-! ### The schema of a sketch -/

namespace Sketch

/-- A type of a sketch with its fields. -/
def objectType (name : String) (fields : Entries Ty) : ObjectType :=
  ObjectType.ofFields name none
    (fields.map fun (member, ty) => Schema.inferredField member ty)

variable {sketch : Sketch} {type member name : String} {ty : Ty} {field : FieldDefinition}

/-- The schema that is made of a sketch with a query type. -/
def schema (sketch : Sketch) : Schema :=
  .ofParts "Query" [] (List.map (fun (name, fields) => objectType name fields) sketch) []

/-- The schema of a sketch with a query type has its types with their fields. -/
theorem types_schema (hquery : Entries.contains sketch "Query" = true) (h : sketch.Distinct) :
    sketch.schema.types =
      sketch.map fun entry => (entry.1, objectType entry.1 entry.2) := by
  have hpairs : (sketch.map fun (name, fields) => objectType name fields).map
      (fun type => (type.name, type)) =
        sketch.map fun entry => (entry.1, objectType entry.1 entry.2) := by
    rw [List.map_map]
    rfl
  have hnames : Entries.names (sketch.map fun entry =>
      (entry.1, objectType entry.1 entry.2)) = Entries.names sketch := by
    unfold Entries.names
    rw [List.map_map]
    rfl
  unfold schema Schema.ofParts
  dsimp only
  rw [hpairs, Entries.ofList_of_nodup (hnames ▸ h.1), if_pos]
  rw [Entries.contains_iff_mem_names] at hquery ⊢
  rwa [hnames]

/-- The fields of a type in the schema are those of the sketch under their public names. -/
theorem field?_schema (hquery : Entries.contains sketch "Query" = true) (h : sketch.Distinct)
    (type name : String) :
    sketch.schema.field? type name =
      Entries.find? (Entries.ofList ((sketch.fields type).map fun entry =>
        (Text.camelCase entry.1, Schema.inferredField entry.1 entry.2))) name := by
  unfold Schema.field? Schema.type? Sketch.fields
  rw [types_schema hquery h, Entries.find?_mapEntries]
  cases Entries.find? sketch type with
  | none => rfl
  | some fields =>
    change Entries.find? (Entries.ofList ((fields.map _).map _)) name = _
    rw [List.map_map]
    rfl

/-- Every field of the schema reads a member with a type that is noted for it. -/
theorem exists_ty?_of_field? (hquery : Entries.contains sketch "Query" = true)
    (h : sketch.Distinct) (hfield : sketch.schema.field? type name = some field) :
    ∃ member ty, sketch.ty? type member = some ty ∧ field = Schema.inferredField member ty ∧
      Text.camelCase member = name := by
  rw [field?_schema hquery h] at hfield
  obtain ⟨entry, hentry, heq⟩ :=
    List.mem_map.mp (Entries.mem_of_mem_ofList (Entries.mem_of_find? hfield))
  cases heq
  exact ⟨entry.1, entry.2, Entries.find?_of_mem_of_nodup (h.2 type) hentry, rfl, rfl⟩

/-- Every member that is noted has a field under its public name. -/
theorem exists_field?_of_ty? (hquery : Entries.contains sketch "Query" = true)
    (h : sketch.Distinct) (hty : sketch.ty? type member = some ty) :
    ∃ field, sketch.schema.field? type (Text.camelCase member) = some field := by
  rw [field?_schema hquery h, ← Option.isSome_iff_exists]
  refine Entries.contains_iff_mem_names.mpr (Entries.mem_names_extend.mpr (.inr ?_))
  have hmem := Entries.mem_of_find? hty
  exact List.mem_map.mpr ⟨_, List.mem_map_of_mem hmem, rfl⟩

/-- If types are noted as they are seen, every member that was seen has a field under its public
name, and this reads a member that was seen. -/
theorem exists_field?_of_seen {seen : List Sighting}
    (hquery : Entries.contains sketch "Query" = true) (h : sketch.Distinct)
    (hty : ∀ type member, sketch.ty? type member =
      Json.commonTy? (typeNameOf member) none (seenAt seen type member))
    {json : Json} (hseen : (⟨type, member, json⟩ : Sighting) ∈ seen) :
    ∃ field host, sketch.schema.field? type (Text.camelCase member) = some field ∧
      field.resolver = .member host ∧ Text.camelCase host = Text.camelCase member ∧
      ∃ other, (⟨type, host, other⟩ : Sighting) ∈ seen := by
  have hnoted : ∃ ty, sketch.ty? type member = some ty := by
    rw [hty]
    have hmem := mem_seenAt.mpr hseen
    cases hsamples : seenAt seen type member with
    | nil =>
      rw [hsamples] at hmem
      cases hmem
    | cons first rest => exact Json.exists_commonTy? _ first rest
  obtain ⟨ty, hnoted⟩ := hnoted
  obtain ⟨field, hfield⟩ := exists_field?_of_ty? hquery h hnoted
  obtain ⟨host, hostTy, hhost, rfl, hname⟩ := exists_ty?_of_field? hquery h hfield
  refine ⟨_, host, hfield, rfl, hname, ?_⟩
  rw [hty] at hhost
  cases hsamples : seenAt seen type host with
  | nil =>
    rw [hsamples] at hhost
    cases hhost
  | cons first rest =>
    exact ⟨first, mem_seenAt.mp (hsamples ▸ List.mem_cons_self)⟩

/-- The members that are known of objects are those that are noted. -/
theorem ty?_of_members (hquery : Entries.contains sketch "Query" = true) (h : sketch.Distinct)
    (hmember : sketch.schema.members type member ty) : sketch.ty? type member = some ty := by
  obtain ⟨name, field, hfield, hresolver, rfl⟩ := hmember
  obtain ⟨host, found, hty, rfl, -⟩ := exists_ty?_of_field? hquery h hfield
  cases hresolver
  exact hty

end Sketch

/-- The schema and the value of a sample. -/
theorem Schema.ofSample_eq {members : List (String × Json)} {sketch : Sketch}
    (hrun : ((Json.object members).infer "Query").run [] =
      ((.object "Query", (Json.object members).sampled "Query"), sketch))
    (hquery : Entries.contains sketch "Query" = true) :
    Schema.ofSample (.object members) =
      (sketch.schema, (Json.object members).sampled "Query") := by
  unfold Schema.ofSample
  rw [hrun]
  dsimp only
  rw [if_pos hquery]
  rfl

end TypedQuery
