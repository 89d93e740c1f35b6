import TypedQuery.Method.Standard
import TypedQuery.Proofs.Computation
import TypedQuery.Proofs.Value.Sorting

/-!
# Sorted lists

`orderBy` and `orderByDesc` sort a list by the values that a key has on its items. Keys of which
every two have an order are sorted stably, with `null` at the lower end. The sort is told to treat
keys without an order as equal, and that is a preorder on the keys of every type that can be sorted
but the dynamic one and that of floats.
-/

namespace TypedQuery

variable {services : Services} {environment : Environment} {source key : Plan} {name : String}
  {descending : Bool} {items keys : List Value}

/-- Items are paired with the keys that are computed from them. -/
theorem mapM_keyed {body : Value → Except RunFault Value}
    (h : List.Forall₂ (fun item key => body item = .ok key) items keys) :
    (items.mapM fun item => do return (← body item, item)) = .ok (keys.zip items) := by
  induction h with
  | nil => rfl
  | cons hfirst _ ih =>
    rw [List.mapM_cons, hfirst, ih]
    rfl

namespace Plan

/-- Sorting `null` gives `null`. -/
theorem eval_orderBy_of_null (h : source.eval services environment = .ok .null) :
    (source.orderBy name key descending).eval services environment = .ok .null := by
  unfold orderBy eval
  rw [h]
  rfl

/-- A list is sorted by the values that the key has on its items. -/
theorem eval_orderBy_of_list (h : source.eval services environment = .ok (.list items))
    (hkeys : List.Forall₂
      (fun item value => key.eval services ((name, item) :: environment) = .ok value) items keys) :
    (source.orderBy name key descending).eval services environment =
      .ok (.list (Value.sortKeyed descending (keys.zip items))) := by
  unfold orderBy eval
  rw [h]
  change (do
    let keyed ← items.mapM fun item => do
      return (← key.eval services ((name, item) :: environment), item)
    return Value.list (Value.sortKeyed descending keyed)) = _
  rw [mapM_keyed hkeys]
  rfl

end Plan

namespace Method

open Halting

variable {call : MethodCall} {session final : Session} {node : Node}

/-- A call that is accepted sorts its receiver by its argument. -/
theorem orderBy_eq_ok (h : orderBy descending call session = .ok node final) :
    ∃ key, call.compileArgument 0 session = .ok key final ∧ key.ty.isOrderable = true ∧
      node.plan = call.receiver.plan.orderBy call.elementName key.plan descending := by
  obtain ⟨key, between, hkey, h⟩ := bind_eq_ok.mp h
  split at h
  · obtain ⟨rfl, rfl⟩ := pure_eq_ok.mp h
    exact ⟨key, hkey, ‹_›, rfl⟩
  · cases h

/-- **Sorting is a stable sort.** What `orderBy` and `orderByDesc` make of a list is a permutation
of it in the order of its keys, if the keys are no floats and every two of them have an order.
`null` is sorted to `null`. -/
theorem orderBy_sorts (h : orderBy descending call session = .ok node final) :
    ∃ key, call.compileArgument 0 session = .ok key final ∧ ∀ services environment,
      (call.receiver.plan.eval services environment = .ok .null →
        node.plan.eval services environment = .ok .null) ∧
      ∀ items keys, call.receiver.plan.eval services environment = .ok (.list items) →
        List.Forall₂ (fun item value =>
          key.plan.eval services ((call.elementName, item) :: environment) = .ok value) items keys →
        (∀ a ∈ keys, ∀ x, a ≠ .float x) →
        (∀ a ∈ keys, ∀ b ∈ keys, ∃ order, Value.compare a b = some order) →
        ∃ sorted, node.plan.eval services environment = .ok (.list (sorted.map Prod.snd)) ∧
          (sorted.map Prod.snd).Perm items ∧
          Value.StablySorted descending (keys.zip items) sorted := by
  obtain ⟨key, hkey, -, hplan⟩ := orderBy_eq_ok h
  refine ⟨key, hkey, fun services environment => ⟨fun hnull => ?_, ?_⟩⟩
  · rw [hplan, Plan.eval_orderBy_of_null hnull]
  · intro items keys hitems hkeys hfloat hcomparable
    have hlength := hkeys.length_eq
    have hfirst : (keys.zip items).map Prod.fst = keys := List.map_fst_zip (by omega)
    have hsecond : (keys.zip items).map Prod.snd = items := List.map_snd_zip (by omega)
    rw [← hfirst] at hfloat hcomparable
    obtain ⟨sorted, heq, hsorted⟩ := Value.sortKeyed_stable descending hfloat hcomparable
    refine ⟨sorted, ?_, hsecond ▸ hsorted.perm.map Prod.snd, hsorted⟩
    rw [hplan, Plan.eval_orderBy_of_list hitems hkeys, heq]

/-- A call that sorts rows by their ranks. -/
def rankCall (rank : Ty) : MethodCall :=
  ⟨"orderByDesc", .ofPlan (.param (.list (.object "Row")) "rows"),
    .ofPlan (.param (.object "Row") "p0"),
    [⟨.identifier "rank", fun row => return row.map fun plan => plan.member "rank" rank⟩]⟩

/-- A row of a rank. -/
def rankedRow (label : String) (rank : Value) : Value :=
  .object "Row" [("label", .text label), ("rank", rank)]

/-- Three rows, two of which have ranks that are equal numbers. -/
def rankedRows : List Value :=
  [rankedRow "a" (.int 1), rankedRow "b" .null, rankedRow "c" (.decimal (.ofInt64 1))]

/-- Rows with the keys one, `null` and one are sorted downwards and stay in order where the keys are
equal. -/
theorem orderBy_sorts_rows :
    ∃ node final, orderBy true (rankCall .any) default = .ok node final ∧
      ∃ sorted, node.plan.eval [] [("rows", .list rankedRows)] =
          .ok (.list (sorted.map Prod.snd)) ∧
        (sorted.map Prod.snd).Perm rankedRows ∧
        Value.StablySorted true
          ([.int 1, .null, .decimal (.ofInt64 1)].zip rankedRows) sorted := by
  obtain ⟨key, hkey, hrun⟩ :=
    orderBy_sorts (show orderBy true (rankCall .any) default = .ok _ _ from rfl)
  cases hkey
  refine ⟨_, _, rfl, (hrun [] [("rows", .list rankedRows)]).2 rankedRows
    [.int 1, .null, .decimal (.ofInt64 1)] rfl ?_ ?_ ?_⟩
  · exact .cons rfl (.cons rfl (.cons rfl .nil))
  · intro a ha x
    simp only [List.mem_cons, List.not_mem_nil, or_false] at ha
    rcases ha with rfl | rfl | rfl <;> nofun
  · intro a ha b hb
    simp only [List.mem_cons, List.not_mem_nil, or_false] at ha hb
    rcases ha with rfl | rfl | rfl <;> rcases hb with rfl | rfl | rfl <;> exact ⟨_, rfl⟩

/-- The sort goes by how keys collate, and that is a total preorder of the keys that the type of the
key admits just if the type is neither dynamic nor that of floats. -/
theorem orderBy_collates (h : orderBy descending call session = .ok node final) :
    ∃ key, call.compileArgument 0 session = .ok key final ∧
      node.plan = call.receiver.plan.orderBy call.elementName key.plan descending ∧
      (∀ a b, Value.precedes descending a b = true ↔ Value.collate descending a b = .lt) ∧
      ∀ members, (Std.TransCmp fun a b : { value : Value // value.Conforms members key.ty } =>
        Value.collate descending a b) ↔ key.ty.Definite := by
  obtain ⟨key, hkey, horderable, hplan⟩ := orderBy_eq_ok h
  exact ⟨key, hkey, hplan, fun _ _ => Value.precedes_iff,
    fun members => Value.transCmp_iff horderable members descending⟩

/-- A key of integers has a type on which the comparison of sorting is transitive. -/
theorem orderBy_collates_rows :
    ∃ node final key, orderBy true (rankCall (.int .i32)) default = .ok node final ∧
      (rankCall (.int .i32)).compileArgument 0 default = .ok key final ∧
      key.ty.Definite ∧
      ∀ members, Std.TransCmp fun a b : { value : Value // value.Conforms members key.ty } =>
        Value.collate true a b := by
  obtain ⟨key, hkey, -, -, hcollates⟩ :=
    orderBy_collates (show orderBy true (rankCall (.int .i32)) default = .ok _ _ from rfl)
  cases hkey
  exact ⟨_, _, _, rfl, rfl, by decide, fun members => (hcollates members).mpr (by decide)⟩

end Method

end TypedQuery
