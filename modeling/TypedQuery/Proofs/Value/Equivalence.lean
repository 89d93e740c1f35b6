import TypedQuery.Proofs.Value.Ordering
import TypedQuery.Proofs.Value.Symmetry

/-!
# Equality of values without floats

On values that hold no float at any depth, equality is an equivalence, and the order of those that
have one is linear with `null` first, whether an integer is signed, unsigned or a decimal. Floats
break both: one that is no number does not equal itself, and a decimal is rounded to be compared
with a float.
-/

namespace TypedQuery.Value

variable {a b c value : Value} {order next : Ordering}

/-- The value holds no float at any depth. -/
inductive Floatless : Value → Prop
  | scalar {value : Value} (h : value.isScalar = true) (hfloat : ∀ x, value ≠ .float x) :
      Floatless value
  | list {items : List Value} (hitems : ∀ item ∈ items, Floatless item) : Floatless (.list items)
  | object {type : String} {members : List (String × Value)}
      (hvalues : ∀ member ∈ members, Floatless member.2) : Floatless (.object type members)
  | record {fields : Signature} {values : List Value}
      (hvalues : ∀ value ∈ values, Floatless value) : Floatless (.record fields values)

/-- A value without floats is none. -/
theorem Floatless.ne_float (h : value.Floatless) (x : Float) : value ≠ .float x := by
  cases h with
  | scalar _ hfloat => exact hfloat x
  | list _ | object _ | record _ => exact nofun

/-- What a value other than `null` does not exceed is not `null`. -/
theorem ne_null_of_compare (h : compare b c = some order) (hb : b ≠ .null) (horder : order ≠ .gt) :
    c ≠ .null := by
  rintro rfl
  rw [(compare_null hb).2] at h
  cases h
  exact horder rfl

/-- Where neither of two steps goes down, the order of the ends is that of the first step that goes
up. -/
theorem compare_then (hab : compare a b = some order) (hbc : compare b c = some next)
    (horder : order ≠ .gt) (hnext : next ≠ .gt) (ha : ∀ x, a ≠ .float x) (hb : ∀ x, b ≠ .float x)
    (hc : ∀ x, c ≠ .float x) : compare a c = some (order.then next) := by
  by_cases hnull : a = .null
  · subst hnull
    by_cases hmiddle : b = .null
    · subst hmiddle
      cases hab
      exact hbc
    · cases (compare_null hmiddle).1.symm.trans hab
      exact (compare_null (ne_null_of_compare hbc hmiddle hnext)).1
  · have hmiddle := ne_null_of_compare hab hnull horder
    have hlast := ne_null_of_compare hbc hmiddle hnext
    obtain ⟨scale, hscale, hscaleMiddle⟩ := exists_scale_of_compare hab hnull hmiddle ha hb
    obtain ⟨other, hother, hscaleLast⟩ := exists_scale_of_compare hbc hmiddle hlast hb hc
    cases hscaleMiddle.symm.trans hother
    obtain ⟨x, hx⟩ := exists_place hscale
    obtain ⟨y, hy⟩ := exists_place hscaleMiddle
    obtain ⟨z, hz⟩ := exists_place hscaleLast
    obtain ⟨first, hfirst, hxy⟩ := compare_of_places hx hy
    obtain ⟨second, hsecond, hyz⟩ := compare_of_places hy hz
    obtain ⟨whole, hwhole, hxz⟩ := compare_of_places hx hz
    cases hab.symm.trans hfirst
    cases hbc.symm.trans hsecond
    rw [hwhole]
    refine congrArg some (hxz.inj ?_)
    cases order with
    | lt =>
      cases next with
      | lt => exact lt_trans hxy hyz
      | eq => exact lt_of_lt_of_eq hxy hyz
      | gt => exact absurd rfl hnext
    | eq =>
      cases next with
      | lt => exact lt_of_eq_of_lt hxy hyz
      | eq => exact Eq.trans hxy hyz
      | gt => exact absurd rfl hnext
    | gt => exact absurd rfl horder

/-- A scalar that is no float equals itself. -/
theorem compare_self (h : value.isScalar = true) (hfloat : ∀ x, value ≠ .float x) :
    compare value value = some .eq := by
  by_cases hnull : value = .null
  · rw [hnull]
    rfl
  · obtain ⟨scale, hscale⟩ : ∃ scale, value.scale? = some scale := by
      cases value with
      | null => exact absurd rfl hnull
      | float x => exact absurd rfl (hfloat x)
      | list _ | object _ _ | record _ _ => cases h
      | _ => exact ⟨_, rfl⟩
    obtain ⟨x, hx⟩ := exists_place hscale
    obtain ⟨order, horder, hcompares⟩ := compare_of_places hx hx
    rw [horder, hcompares.eq_eq.mpr rfl]

/-- Only values without parts are equal by their order. -/
theorem isScalar_of_compare_eq (h : compare a b = some .eq) :
    a.isScalar = true ∧ b.isScalar = true := by
  cases a with
  | list _ | object _ _ | record _ _ => cases b <;> cases h
  | _ =>
    cases b with
    | list _ | object _ _ | record _ _ => cases h
    | _ => exact ⟨rfl, rfl⟩

/-- What equals a value without parts has none itself. -/
theorem isScalar_of_same (h : same a b = true) (hscalar : a.isScalar = true ∨ b.isScalar = true) :
    a.isScalar = true ∧ b.isScalar = true ∧ compare a b = some .eq := by
  rw [same_eq_compare hscalar, decide_eq_true_iff] at h
  obtain ⟨ha, hb⟩ := isScalar_of_compare_eq h
  exact ⟨ha, hb, h⟩

/-- A list is the same as itself if its items are. -/
theorem sameItems_self {items : List Value} (h : ∀ item ∈ items, same item item = true) :
    sameItems items items = true := by
  induction items with
  | nil => rfl
  | cons item rest ih =>
    obtain ⟨hitem, hrest⟩ := List.forall_mem_cons.mp h
    unfold sameItems
    rw [hitem, ih hrest, Bool.true_and]

/-- Lists that are the same as a third one are the same if this is so for items. -/
theorem sameItems_trans {items others last : List Value}
    (h : ∀ item ∈ items, ∀ other ∈ others, ∀ third ∈ last, same item other = true →
      same other third = true → same item third = true)
    (hfirst : sameItems items others = true) (hsecond : sameItems others last = true) :
    sameItems items last = true := by
  induction items generalizing others last with
  | nil =>
    cases others with
    | nil => exact hsecond
    | cons _ _ => cases hfirst
  | cons item rest ih =>
    cases others with
    | nil => cases hfirst
    | cons other others =>
      cases last with
      | nil => cases hsecond
      | cons third last =>
        unfold sameItems at hfirst hsecond ⊢
        rw [Bool.and_eq_true] at hfirst hsecond ⊢
        refine ⟨h item List.mem_cons_self other List.mem_cons_self third List.mem_cons_self
          hfirst.1 hsecond.1, ih (fun item hitem other hother third hthird => ?_) hfirst.2
          hsecond.2⟩
        exact h item (List.mem_cons_of_mem _ hitem) other (List.mem_cons_of_mem _ hother) third
          (List.mem_cons_of_mem _ hthird)

/-- Equality is reflexive. -/
theorem Floatless.same_self (h : value.Floatless) (hvalue : value.Unambiguous) :
    same value value = true := by
  induction h with
  | scalar h hfloat => rw [same_eq_compare (.inl h), compare_self h hfloat, decide_eq_true rfl]
  | list _ ih =>
    cases hvalue with
    | scalar h => cases h
    | list hitems => exact sameItems_self fun item hitem => ih item hitem (hitems item hitem)
  | object _ ih =>
    cases hvalue with
    | scalar h => cases h
    | object hnames hvalues =>
      unfold same
      rw [decide_eq_true rfl, decide_eq_true rfl, Bool.true_and, Bool.true_and, sameMembers_iff]
      exact fun member hmember => ⟨member.2, Entries.find?_of_mem_of_nodup hnames hmember,
        ih member hmember (hvalues member hmember)⟩
  | record _ ih =>
    cases hvalue with
    | scalar h => cases h
    | record hvalues =>
      unfold same
      rw [decide_eq_true rfl, Bool.true_and]
      exact sameItems_self fun value hvalue => ih value hvalue (hvalues value hvalue)

/-- Equality is transitive. -/
theorem Floatless.same_trans (ha : a.Floatless) (hb : b.Floatless) (hc : c.Floatless)
    (hab : same a b = true) (hbc : same b c = true) : same a c = true := by
  -- on the first value; whatever is the same as a scalar, a list or an object is one itself
  induction ha generalizing b c with
  | @scalar a h hfloat =>
    obtain ⟨-, hmiddle, hcompare⟩ := isScalar_of_same hab (.inl h)
    obtain ⟨-, -, hnext⟩ := isScalar_of_same hbc (.inl hmiddle)
    have hends : compare a c = some .eq :=
      compare_then hcompare hnext nofun nofun hfloat hb.ne_float hc.ne_float
    rw [same_eq_compare (.inl h), hends, decide_eq_true rfl]
  | @list items _ ih =>
    cases hb with
    | scalar h _ => cases (isScalar_of_same hab (.inr h)).1
    | list hothers =>
      cases hc with
      | scalar h _ => cases (isScalar_of_same hbc (.inr h)).1
      | list hlast =>
        exact sameItems_trans (fun item hitem other hother third hthird =>
          ih item hitem (hothers other hother) (hlast third hthird)) hab hbc
      | object _ | record _ => cases hbc
    | object _ | record _ => cases hab
  | @object type members _ ih =>
    cases hb with
    | scalar h _ => cases (isScalar_of_same hab (.inr h)).1
    | object hothers =>
      cases hc with
      | scalar h _ => cases (isScalar_of_same hbc (.inr h)).1
      | object hlast =>
        unfold same at hab hbc ⊢
        simp only [Bool.and_eq_true, decide_eq_true_iff, sameMembers_iff] at hab hbc ⊢
        obtain ⟨⟨rfl, hlength⟩, hmembers⟩ := hab
        obtain ⟨⟨rfl, hlength'⟩, hothers'⟩ := hbc
        refine ⟨⟨rfl, hlength.trans hlength'⟩, fun member hmember => ?_⟩
        obtain ⟨other, hother, hsame⟩ := hmembers member hmember
        have hmem := Entries.mem_of_find? hother
        obtain ⟨third, hthird, hsame'⟩ := hothers' _ hmem
        exact ⟨third, hthird, ih member hmember (hothers _ hmem)
          (hlast _ (Entries.mem_of_find? hthird)) hsame hsame'⟩
      | list _ | record _ => cases hbc
    | list _ | record _ => cases hab
  | @record fields values _ ih =>
    cases hb with
    | scalar h _ => cases (isScalar_of_same hab (.inr h)).1
    | record hothers =>
      cases hc with
      | scalar h _ => cases (isScalar_of_same hbc (.inr h)).1
      | record hlast =>
        unfold same at hab hbc ⊢
        simp only [Bool.and_eq_true, decide_eq_true_iff] at hab hbc ⊢
        exact ⟨hab.1.trans hbc.1, sameItems_trans (fun item hitem other hother third hthird =>
          ih item hitem (hothers other hother) (hlast third hthird)) hab.2 hbc.2⟩
      | list _ | object _ => cases hbc
    | list _ | object _ => cases hab

/-- A value without floats, of the sort that hosts and texts give: no object in it has two members
of one name. -/
structure Exact where
  value : Value
  floatless : value.Floatless
  unambiguous : value.Unambiguous

/-- Equality is an equivalence on exact values. -/
theorem Exact.equivalence : Equivalence fun a b : Exact => same a.value b.value = true where
  refl a := a.floatless.same_self a.unambiguous
  symm {a b} h := (a.unambiguous.same_comm b.unambiguous).symm.trans h
  trans {a b c} := a.floatless.same_trans b.floatless c.floatless

end TypedQuery.Value
