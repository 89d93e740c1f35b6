import TypedQuery.Proofs.Value.Equivalence

/-!
# Lists without repetitions

`distinct` goes through a list from the first item to the last and keeps an item if it equals none
of those kept before. On values without floats equality is an equivalence, so that these are the
items that equal none before them in the whole list: each class of equal items is kept in the place
of its first one.
-/

namespace TypedQuery.Value

variable {items : List Value} {item first : Value}

/-- The items that equal none before them. -/
def firsts (items : List Value) : List Value :=
  (items.zipIdx.filter fun entry => !(items.take entry.2).any (same · entry.1)).map Prod.fst

/-- The last item is kept if it equals none that was kept before. -/
theorem distinctItems_concat (items : List Value) (item : Value) :
    distinctItems (items ++ [item]) =
      if (distinctItems items).any (same · item) then distinctItems items
      else distinctItems items ++ [item] := by
  unfold distinctItems
  rw [List.foldl_append]
  rfl

/-- An item at the end is a first one if none before it is the same. -/
theorem firsts_concat (items : List Value) (item : Value) :
    firsts (items ++ [item]) =
      if items.any (same · item) then firsts items else firsts items ++ [item] := by
  have hearlier : (items.zipIdx.filter fun entry =>
        !((items ++ [item]).take entry.2).any (same · entry.1)) =
      items.zipIdx.filter fun entry => !(items.take entry.2).any (same · entry.1) := by
    refine List.filter_congr fun entry hentry => ?_
    have hlt : entry.2 < items.length := by
      have := List.mem_zipIdx hentry
      omega
    rw [List.take_append_of_le_length hlt.le]
  unfold firsts
  rw [List.zipIdx_append, List.filter_append, List.map_append, hearlier, List.zipIdx_singleton]
  have hwhole : (items ++ [item]).take (0 + items.length) = items := by
    rw [Nat.zero_add, List.take_left]
  rw [List.filter_singleton, hwhole]
  cases items.any (same · item) with
  | true => exact List.append_nil _
  | false => rfl

/-- Removing repetitions leaves items of the list, in their order. -/
theorem distinctItems_sublist (items : List Value) : (distinctItems items).Sublist items := by
  induction items using List.reverseRecOn with
  | nil => exact .slnil
  | append_singleton items item ih =>
    rw [distinctItems_concat]
    split
    · exact ih.trans (List.sublist_append_left items [item])
    · exact ih.append_right [item]

/-- No item that is kept equals one that is kept after it. -/
theorem pairwise_distinctItems (items : List Value) :
    (distinctItems items).Pairwise fun a b => same a b = false := by
  induction items using List.reverseRecOn with
  | nil => exact .nil
  | append_singleton items item ih =>
    rw [distinctItems_concat]
    split
    · exact ih
    · rename_i hnone
      refine List.pairwise_append.mpr ⟨ih, List.pairwise_singleton _ _, fun a ha b hb => ?_⟩
      rw [List.mem_singleton.mp hb, ← Bool.not_eq_true]
      exact fun hsame => hnone (List.any_eq_true.mpr ⟨a, ha, hsame⟩)

/-- Where no item equals one after it, all are kept. -/
theorem distinctItems_of_pairwise (h : items.Pairwise fun a b => same a b = false) :
    distinctItems items = items := by
  induction items using List.reverseRecOn with
  | nil => rfl
  | append_singleton items item ih =>
    obtain ⟨hitems, -, hlast⟩ := List.pairwise_append.mp h
    rw [distinctItems_concat, ih hitems, if_neg]
    rw [List.any_eq_true]
    rintro ⟨a, ha, hsame⟩
    exact absurd ((hlast a ha item (List.mem_singleton.mpr rfl)).symm.trans hsame) nofun

/-- What equals one of the items equals one that is kept. -/
theorem any_distinctItems (hitems : ∀ item ∈ items, item.Floatless ∧ item.Unambiguous)
    (hitem : item.Floatless) :
    (distinctItems items).any (same · item) = items.any (same · item) := by
  induction items using List.reverseRecOn with
  | nil => rfl
  | append_singleton items last ih =>
    obtain ⟨hrest, hlast⟩ := List.forall_mem_append.mp hitems
    have hlast := hlast last (List.mem_singleton.mpr rfl)
    rw [distinctItems_concat, List.any_append, ← ih hrest]
    split
    · rename_i hkept
      obtain ⟨kept, hmem, hsame⟩ := List.any_eq_true.mp hkept
      have hfloatless := (hrest kept ((distinctItems_sublist items).mem hmem)).1
      rw [Bool.eq_iff_iff, Bool.or_eq_true, List.any_cons, List.any_nil, Bool.or_false]
      refine ⟨.inl, fun h => h.elim id fun hequal => ?_⟩
      exact List.any_eq_true.mpr ⟨kept, hmem,
        hfloatless.same_trans hlast.1 hitem hsame hequal⟩
    · exact List.any_append

/-- The items that are kept are those that equal none before them. -/
theorem distinctItems_eq_firsts (hitems : ∀ item ∈ items, item.Floatless ∧ item.Unambiguous) :
    distinctItems items = firsts items := by
  induction items using List.reverseRecOn with
  | nil => rfl
  | append_singleton items last ih =>
    obtain ⟨hrest, hlast⟩ := List.forall_mem_append.mp hitems
    have hlast := hlast last (List.mem_singleton.mpr rfl)
    rw [distinctItems_concat, firsts_concat, any_distinctItems hrest hlast.1, ih hrest]

/-- The first item that equals a value is kept. -/
theorem mem_distinctItems_of_find? (hitems : ∀ item ∈ items, item.Floatless ∧ item.Unambiguous)
    (hitem : item.Floatless) (h : items.find? (same · item) = some first) :
    first ∈ distinctItems items := by
  induction items using List.reverseRecOn with
  | nil => cases h
  | append_singleton items last ih =>
    obtain ⟨hrest, hlast⟩ := List.forall_mem_append.mp hitems
    have hlast := hlast last (List.mem_singleton.mpr rfl)
    have hkept : ∀ kept ∈ distinctItems items, kept ∈ distinctItems (items ++ [last]) := by
      intro kept hmem
      rw [distinctItems_concat]
      split
      · exact hmem
      · exact List.mem_append_left _ hmem
    rw [List.find?_append] at h
    cases hfind : items.find? (same · item) with
    | some found =>
      rw [hfind] at h
      cases h
      exact hkept _ (ih hrest hfind)
    | none =>
      rw [hfind, Option.none_or, List.find?_singleton] at h
      obtain ⟨hsame, ⟨⟩⟩ := Option.ite_none_right_eq_some.mp h
      rw [distinctItems_concat, if_neg]
      · exact List.mem_append_right _ (List.mem_singleton.mpr rfl)
      · rw [List.any_eq_true]
        rintro ⟨kept, hmem, hequal⟩
        have hsource := (distinctItems_sublist items).mem hmem
        exact absurd ((hrest kept hsource).1.same_trans hlast.1 hitem hequal hsame)
          (List.find?_eq_none.mp hfind kept hsource)

/-- An item is equal to the first one that equals it, which is kept. -/
theorem exists_kept (hitems : ∀ item ∈ items, item.Floatless ∧ item.Unambiguous)
    (hmem : item ∈ items) :
    ∃ first ∈ distinctItems items,
      items.find? (same · item) = some first ∧ same first item = true := by
  obtain ⟨hfloatless, hunambiguous⟩ := hitems item hmem
  have hself := hfloatless.same_self hunambiguous
  obtain ⟨first, hfirst⟩ := Option.isSome_iff_exists.mp
    (List.find?_isSome.mpr ⟨item, hmem, hself⟩ : (items.find? (same · item)).isSome = true)
  exact ⟨first, mem_distinctItems_of_find? hitems hfloatless hfirst, hfirst,
    List.find?_some (p := fun value => same value item) hfirst⟩

/-- A list without repetitions, run as a plan. -/
theorem eval_distinct {source : Plan} {services : Services} {environment : Environment}
    (h : source.eval services environment = .ok (.list items)) :
    source.distinct.eval services environment = .ok (.list (distinctItems items)) := by
  unfold Plan.distinct Plan.eval
  rw [h]
  rfl

/-- On values without floats, equality is an equivalence, and the order of values is total on those
that have one: it turns with them, it is transitive, and values without parts are equal where it
says so. `distinct` keeps those items of a list, in their order, that equal none before them. No two
of these are equal, each item equals the first one of its class, which is kept, and nothing changes
when the result is taken again. -/
theorem equality_and_distinct :
    (Equivalence fun a b : Exact => same a.value b.value = true) ∧
    (∀ a b : Value, compare b a = (compare a b).map Ordering.swap) ∧
    (∀ (a b c : Exact) (order next : Ordering), compare a.value b.value = some order →
      compare b.value c.value = some next → order ≠ .gt → next ≠ .gt →
        compare a.value c.value = some (order.then next)) ∧
    (∀ a b : Value, a.isScalar = true ∨ b.isScalar = true →
      (same a b = true ↔ compare a b = some .eq)) ∧
    ∀ (source : Plan) (services : Services) (environment : Environment) (items : List Value),
      source.eval services environment = .ok (.list items) →
      (∀ item ∈ items, item.Floatless ∧ item.Unambiguous) →
        ∃ kept, source.distinct.eval services environment = .ok (.list kept) ∧
          kept = firsts items ∧ kept.Sublist items ∧
          kept.Pairwise (fun a b => same a b = false) ∧
          (∀ item ∈ items, ∃ first ∈ kept,
            items.find? (same · item) = some first ∧ same first item = true) ∧
          source.distinct.distinct.eval services environment = .ok (.list kept) := by
  refine ⟨Exact.equivalence, compare_swap, ?_, ?_, ?_⟩
  · intro a b c order next hab hbc horder hnext
    exact compare_then hab hbc horder hnext a.floatless.ne_float b.floatless.ne_float
      c.floatless.ne_float
  · intro a b hscalar
    rw [same_eq_compare hscalar, decide_eq_true_iff]
  · intro source services environment items hsource hitems
    have hkept := eval_distinct hsource
    have hpairwise := pairwise_distinctItems items
    have hagain := eval_distinct hkept
    rw [distinctItems_of_pairwise hpairwise] at hagain
    exact ⟨distinctItems items, hkept, distinctItems_eq_firsts hitems, distinctItems_sublist items,
      hpairwise, fun item hitem => exists_kept hitems hitem, hagain⟩

/-- The decimal 1.0. -/
def oneWithPlace : Decimal := ⟨false, 10, 1, by decide, by decide⟩

/-- Prices of every sort of exact number, and two orders whose members stand in different places. -/
def prices : List Value :=
  [.int 1, .object "Order" [("id", .int 7), ("total", .uint 1)], .decimal oneWithPlace,
    .object "Order" [("total", .decimal oneWithPlace), ("id", .int 7)], .uint 1, .null]

/-- Of the prices, the first of each class is kept. A signed integer below a decimal that equals an
unsigned integer is below that integer. -/
theorem equality_and_distinct_prices :
    compare (.int 0) (.uint 1) = some .lt ∧
    (∀ item ∈ prices, item.Floatless ∧ item.Unambiguous) ∧
    ∃ kept, (Plan.ofValue (.list prices)).distinct.eval [] [] = .ok (.list kept) ∧
      kept.length = 3 ∧ kept.Sublist prices ∧
      ∃ first ∈ kept, same first (.decimal oneWithPlace) = true := by
  obtain ⟨-, -, htransitive, -, hdistinct⟩ := equality_and_distinct
  have hint (n : Int64) : (Value.int n).Floatless := .scalar rfl nofun
  have huint (n : UInt64) : (Value.uint n).Floatless := .scalar rfl nofun
  have hdecimal (d : Decimal) : (Value.decimal d).Floatless := .scalar rfl nofun
  have hplain {value : Value} (h : value.isScalar = true) (hfloat : ∀ x, value ≠ .float x) :
      value.Floatless ∧ value.Unambiguous :=
    ⟨.scalar h hfloat, .scalar h⟩
  have horder {type : String} {members : List (String × Value)}
      (hnames : (Entries.names members).Nodup)
      (hmembers : ∀ member ∈ members, member.2.Floatless ∧ member.2.Unambiguous) :
      (Value.object type members).Floatless ∧ (Value.object type members).Unambiguous :=
    ⟨.object fun member hmember => (hmembers member hmember).1,
      .object hnames fun member hmember => (hmembers member hmember).2⟩
  have hprices : ∀ item ∈ prices, item.Floatless ∧ item.Unambiguous := by
    unfold prices
    simp only [List.forall_mem_cons, List.not_mem_nil, false_implies, implies_true, and_true]
    refine ⟨hplain rfl nofun, horder (by decide) ?_, hplain rfl nofun, horder (by decide) ?_,
      hplain rfl nofun, hplain rfl nofun⟩
    · simp only [List.forall_mem_cons, List.not_mem_nil, false_implies, implies_true, and_true]
      exact ⟨hplain rfl nofun, hplain rfl nofun⟩
    · simp only [List.forall_mem_cons, List.not_mem_nil, false_implies, implies_true, and_true]
      exact ⟨hplain rfl nofun, hplain rfl nofun⟩
  refine ⟨?_, hprices, ?_⟩
  · exact htransitive ⟨.int 0, hint 0, .scalar rfl⟩ ⟨.decimal oneWithPlace, hdecimal _, .scalar rfl⟩
      ⟨.uint 1, huint 1, .scalar rfl⟩ .lt .eq rfl rfl nofun nofun
  · obtain ⟨kept, hkept, hfirsts, hsublist, -, hclasses, -⟩ :=
      hdistinct (.ofValue (.list prices)) [] [] prices rfl hprices
    obtain ⟨first, hfirst, -, hsame⟩ := hclasses (.decimal oneWithPlace) (by simp [prices])
    exact ⟨kept, hkept, by rw [hfirsts]; rfl, hsublist, first, hfirst, hsame⟩

end TypedQuery.Value
