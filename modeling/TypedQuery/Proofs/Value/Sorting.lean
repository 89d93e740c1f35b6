import Mathlib.Data.List.Sort
import Mathlib.Order.OrderDual
import TypedQuery.Proofs.Value.Ordering

/-!
# Sorting by keys

The sort of keys and items is the insertion sort by the order of the keys in a direction. If the
keys are ranked, the items come out in the order of their keys, and items with equal keys stay in
the order in which they came.
-/

namespace TypedQuery.Value

variable {a b : Value} {values : Value → Prop} {keyed : List (Value × Value)} {descending : Bool}

/-- How two keys compare in a direction. Keys that have no order count as equal. -/
def collate (descending : Bool) (a b : Value) : Ordering :=
  let order := (compare a b).getD .eq
  if descending then order.swap else order

/-- A key comes before another if it collates below it. -/
theorem precedes_iff : precedes descending a b = true ↔ collate descending a b = .lt := by
  unfold precedes collate
  rw [decide_eq_true_iff]
  rcases compare a b with _ | _ | _ | _ <;> cases descending <;> decide

/-- Values that compare as equal are so in either direction. -/
theorem collate_eq (h : compare a b = some .eq) : collate descending a b = .eq := by
  unfold collate
  rw [h]
  cases descending <;> rfl

/-- A value does not come after another one that it does not follow in the direction of sorting. -/
theorem collate_ne_gt_iff {order : Ordering} (h : compare a b = some order) :
    collate descending a b ≠ .gt ↔ order ≠ if descending then .lt else .gt := by
  unfold collate
  rw [h]
  cases order <;> cases descending <;> decide

/-- An item may stand before another when the list is read from its end. -/
def Follows (descending : Bool) (a b : Value × Value) : Prop :=
  precedes descending a.1 b.1 = false

instance (descending : Bool) : DecidableRel (Follows descending) := fun _ _ =>
  inferInstanceAs (Decidable (_ = _))

/-- Inserting an item by its key is the insertion of the library. -/
theorem insertKeyed_eq (item : Value × Value) (sorted : List (Value × Value)) :
    insertKeyed (precedes descending) item sorted =
      sorted.orderedInsert (Follows descending) item := by
  induction sorted with
  | nil => rfl
  | cons last rest ih =>
    unfold insertKeyed
    by_cases h : precedes descending item.1 last.1 = true
    · have hfollows : ¬ Follows descending item last := by
        simp only [Follows, h, Bool.true_eq_false, not_false_eq_true]
      rw [if_pos h, List.orderedInsert_of_not_le _ _ hfollows, ih]
    · have hfollows : Follows descending item last := Bool.eq_false_iff.mpr h
      rw [if_neg h, List.orderedInsert_cons_of_le _ _ hfollows]

/-- Sorting by keys is an insertion sort from the first item to the last. -/
theorem sortKeyed_eq (descending : Bool) (keyed : List (Value × Value)) :
    sortKeyed descending keyed =
      (keyed.reverse.insertionSort (Follows descending)).reverse.map Prod.snd := by
  unfold sortKeyed List.insertionSort
  rw [List.foldr_reverse]
  simp only [insertKeyed_eq]

/-- Ranked keys collate as places in a linear order do, in both directions. -/
theorem Ranked.exists_collate (h : Ranked values) (descending : Bool) :
    ∃ (α : Type) (_ : LinearOrder α) (place : Value → α), ∀ a b, values a → values b →
      (∃ order, compare a b = some order) ∧
        (collate descending a b).Compares (place a) (place b) := by
  obtain ⟨α, linear, place, hplace⟩ := h
  cases descending with
  | false =>
    refine ⟨α, linear, place, fun a b ha hb => ?_⟩
    obtain ⟨order, horder, hcompares⟩ := hplace a b ha hb
    refine ⟨⟨order, horder⟩, ?_⟩
    unfold collate
    rw [horder]
    exact hcompares
  | true =>
    refine ⟨αᵒᵈ, inferInstance, fun value => OrderDual.toDual (place value), fun a b ha hb => ?_⟩
    obtain ⟨order, horder, hcompares⟩ := hplace a b ha hb
    refine ⟨⟨order, horder⟩, ?_⟩
    unfold collate
    rw [horder]
    cases order <;> exact hcompares

/-- Ranked keys are collated by a total preorder. -/
theorem Ranked.transCmp (h : Ranked values) (descending : Bool) :
    Std.TransCmp fun a b : { value // values value } => collate descending a b := by
  obtain ⟨α, linear, place, hplace⟩ := h.exists_collate descending
  have hcollate : ∀ a b : { value // values value },
      (collate descending a b).Compares (place a) (place b) :=
    fun a b => (hplace a b a.2 b.2).2
  refine { eq_swap := fun {a b} => ?_, isLE_trans := fun {a b c} hab hbc => ?_ }
  · exact (hcollate a b).inj (Ordering.compares_swap.mpr (hcollate b a))
  · rw [Ordering.isLE_iff_ne_gt] at hab hbc ⊢
    exact (hcollate a c).ne_gt.mpr
      (((hcollate a b).ne_gt.mp hab).trans ((hcollate b c).ne_gt.mp hbc))

/-- Ties that are not passed on are no part of a preorder. -/
theorem not_transCmp_of_ties {x y z : Value} (hx : values x) (hy : values y) (hz : values z)
    (hxy : collate descending x y = .eq) (hyz : collate descending y z = .eq)
    (hxz : collate descending x z ≠ .eq) :
    ¬ Std.TransCmp fun a b : { value // values value } => collate descending a b := by
  intro h
  have htie := @h.eq_trans _ _ ⟨x, hx⟩ ⟨y, hy⟩ ⟨z, hz⟩
  exact hxz (htie hxy hyz)

variable {members : Members} {ty : Ty}

/-- A type that can be sorted has its values collated by a total preorder unless it is dynamic or
that of floats. Two numbers tie with a text between them, and two floats with one that is no
number. -/
theorem transCmp_iff (horderable : ty.isOrderable = true) (members : Members) (descending : Bool) :
    (Std.TransCmp fun a b : { value : Value // value.Conforms members ty } =>
      collate descending a b) ↔ ty.Definite := by
  refine ⟨fun h => ?_, fun h => (ranked_of_isOrderable horderable h).transCmp descending⟩
  refine ⟨fun hany => ?_, fun hfloat => ?_⟩
  · refine not_transCmp_of_ties (x := .int 1) (y := .text "") (z := .int 2) (.any hany) (.any hany)
      (.any hany) ?_ ?_ ?_ h
    all_goals cases descending <;> decide
  · refine not_transCmp_of_ties (x := .float 1) (y := .float (0 / 0)) (z := .float 2)
      (.float hfloat) (.float hfloat) (.float hfloat) ?_ ?_ ?_ h
    all_goals cases descending <;> decide

/-- An insertion sort keeps items in their order that may stand in any order. -/
theorem filter_insertionSort {α : Type} {r : α → α → Prop} [DecidableRel r] {chosen : α → Bool}
    {items : List α} (h : ∀ a ∈ items, ∀ b ∈ items, chosen a = true → chosen b = true → r a b) :
    (items.insertionSort r).filter chosen = items.filter chosen := by
  have hties : (items.filter chosen).Pairwise r := by
    refine List.pairwise_of_forall_mem_list fun a ha b hb => ?_
    obtain ⟨ha, hchosen⟩ := List.mem_filter.mp ha
    obtain ⟨hb, hchosen'⟩ := List.mem_filter.mp hb
    exact h a ha b hb hchosen hchosen'
  have hkept := (List.sublist_insertionSort hties List.filter_sublist).filter chosen
  rw [List.filter_filter] at hkept
  simp only [Bool.and_self] at hkept
  exact (hkept.eq_of_length ((List.perm_insertionSort r items).filter chosen).length_eq.symm).symm

/-- Items in the order of their keys, those with equal keys as they came. -/
structure StablySorted (descending : Bool) (keyed sorted : List (Value × Value)) : Prop where
  perm : sorted.Perm keyed
  ordered : sorted.Pairwise fun a b =>
    ∃ order, compare a.1 b.1 = some order ∧ order ≠ if descending then .lt else .gt
  /-- The key `null` is first among ascending keys, and last among descending ones. -/
  nulls : sorted.Pairwise fun a b =>
    if descending then a.1 = .null → b.1 = .null else b.1 = .null → a.1 = .null
  stable : ∀ key ∈ keyed.map Prod.fst,
    sorted.filter (fun item => compare item.1 key = some .eq) =
      keyed.filter fun item => compare item.1 key = some .eq

/-- Keys that are in order have `null` at the right end. -/
theorem null_of_ordered
    (h : ∃ order, compare a b = some order ∧ order ≠ if descending then .lt else .gt) :
    if descending then a = .null → b = .null else b = .null → a = .null := by
  obtain ⟨order, horder, hne⟩ := h
  cases descending with
  | false =>
    rintro rfl
    by_contra hsome
    cases (compare_null hsome).2.symm.trans horder
    exact hne rfl
  | true =>
    rintro rfl
    by_contra hsome
    cases (compare_null hsome).1.symm.trans horder
    exact hne rfl

/-- Keys that are no floats, and of which every two have an order, are sorted stably. -/
theorem sortKeyed_stable (descending : Bool)
    (hfloat : ∀ key ∈ keyed.map Prod.fst, ∀ x, key ≠ .float x)
    (hcomparable : ∀ a ∈ keyed.map Prod.fst, ∀ b ∈ keyed.map Prod.fst,
      ∃ order, compare a b = some order) :
    ∃ sorted, sortKeyed descending keyed = sorted.map Prod.snd ∧
      StablySorted descending keyed sorted := by
  -- the keys compare as places in a linear order, so that the insertion sort of the library applies
  obtain ⟨α, linear, place, hplace⟩ :=
    (ranked_of_comparable hfloat hcomparable).exists_collate descending
  have hkey : ∀ {item}, item ∈ keyed → item.1 ∈ keyed.map Prod.fst := List.mem_map_of_mem
  have hfollows : ∀ a ∈ keyed, ∀ b ∈ keyed, Follows descending a b ↔ place b.1 ≤ place a.1 := by
    intro a ha b hb
    have hcollate := (hplace a.1 b.1 (hkey ha) (hkey hb)).2
    rw [Follows, Bool.eq_false_iff, ne_eq, precedes_iff, hcollate.eq_lt, not_lt]
  have hperm : (keyed.reverse.insertionSort (Follows descending)).reverse.Perm keyed :=
    (List.reverse_perm _).trans
      ((List.perm_insertionSort _ _).trans (List.reverse_perm _))
  have hordered : (keyed.reverse.insertionSort (Follows descending)).reverse.Pairwise fun a b =>
      ∃ order, compare a.1 b.1 = some order ∧ order ≠ if descending then .lt else .gt := by
    rw [List.pairwise_reverse]
    have hplaces := List.pairwise_insertionSort (fun x y : α => y ≤ x)
      (keyed.reverse.map fun item => place item.1)
    rw [← List.map_insertionSort (Follows descending), List.pairwise_map] at hplaces
    · refine hplaces.imp_of_mem fun {b a} hb ha hle => ?_
      have ha' := hkey (List.mem_reverse.mp (List.mem_insertionSort _ |>.mp ha))
      have hb' := hkey (List.mem_reverse.mp (List.mem_insertionSort _ |>.mp hb))
      obtain ⟨⟨order, horder⟩, hcollate⟩ := hplace _ _ ha' hb'
      exact ⟨order, horder, (collate_ne_gt_iff horder).mp (hcollate.ne_gt.mpr hle)⟩
    · intro a ha b hb
      exact hfollows a (List.mem_reverse.mp ha) b (List.mem_reverse.mp hb)
  have hties : ∀ key ∈ keyed.map Prod.fst, ∀ item ∈ keyed.reverse,
      decide (compare item.1 key = some .eq) = true → place item.1 = place key := by
    intro key hin item hitem hchosen
    have hcollate := (hplace item.1 key (hkey (List.mem_reverse.mp hitem)) hin).2
    rwa [collate_eq (of_decide_eq_true hchosen)] at hcollate
  refine ⟨_, sortKeyed_eq descending keyed, hperm, hordered, hordered.imp null_of_ordered, ?_⟩
  intro key hin
  rw [List.filter_reverse, filter_insertionSort, List.filter_reverse, List.reverse_reverse]
  intro a ha b hb hchosen hchosen'
  rw [hfollows a (List.mem_reverse.mp ha) b (List.mem_reverse.mp hb),
    hties key hin a ha hchosen, hties key hin b hb hchosen']

end TypedQuery.Value
