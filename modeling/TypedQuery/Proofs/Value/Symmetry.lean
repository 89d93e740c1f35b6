import Mathlib.Data.List.Perm.Subperm
import TypedQuery.Plan.Eval
import TypedQuery.Proofs.Value.Conformance

/-!
# Values compared the other way round

Every comparison has a mirror, which compares the other way round. The order of two values turns
with them, those of floats included, and equality is symmetric. For objects this takes that no
member stands in them twice, as in the objects of a host.
-/

namespace TypedQuery

namespace Operator

variable {op : Operator}

/-- The operator that compares the other way round. -/
def mirror : Operator → Operator
  | less => greater
  | lessEqual => greaterEqual
  | greater => less
  | greaterEqual => lessEqual
  | op => op

/-- The mirror of a mirror is the operator. -/
@[simp] theorem mirror_mirror (op : Operator) : op.mirror.mirror = op := by
  cases op <;> rfl

/-- The mirror of an equality is one, and of nothing else. -/
@[simp] theorem isEquality_mirror (op : Operator) : op.mirror.isEquality = op.isEquality := by
  cases op <;> rfl

/-- The mirror of a relation by order is one, and of nothing else. -/
@[simp] theorem isRelational_mirror (op : Operator) : op.mirror.isRelational = op.isRelational := by
  cases op <;> rfl

/-- The mirror of a comparison is one, and of nothing else. -/
@[simp] theorem isComparison_mirror (op : Operator) : op.mirror.isComparison = op.isComparison := by
  cases op <;> rfl

/-- An equality is its own mirror. -/
theorem mirror_of_isEquality (hop : op.isEquality = true) : op.mirror = op := by
  cases op <;> first | rfl | cases hop

/-- The mirror holds of an order where the operator holds of its opposite. -/
theorem holds_mirror (hop : op.isRelational = true) (order : Ordering) :
    op.mirror.holds order.swap = op.holds order := by
  cases op with
  | less | lessEqual | greater | greaterEqual => cases order <;> rfl
  | _ => cases hop

end Operator

/-- An oriented comparison turns with its operands. -/
theorem compare_swap_of_oriented {α : Type} [Ord α] [Std.OrientedOrd α] (x y : α) :
    Ord.compare y x = (Ord.compare x y).swap :=
  Std.OrientedOrd.eq_swap

/-- The order of two binary numbers turns with them; what is no number has none. -/
theorem compare_unpacked_swap (x y : Float.Model.UnpackedFloat) :
    y.compare x = (x.compare y).map Ordering.swap := by
  have hparts : ∀ (e f : Int) (m n : Nat), (Ord.compare f e).then (Ord.compare n m) =
      ((Ord.compare e f).then (Ord.compare m n)).swap := by
    intro e f m n
    rw [Ordering.swap_then, ← compare_swap_of_oriented, ← compare_swap_of_oriented]
  cases x with
  | notANumber =>
    cases y with
    | infinity t | finite t _ _ _ => cases t <;> rfl
    | notANumber | zero t => rfl
  | infinity s =>
    cases y with
    | infinity t | finite t _ _ _ => cases s <;> cases t <;> rfl
    | notANumber | zero t => cases s <;> rfl
  | zero s =>
    cases y with
    | infinity t | finite t _ _ _ => cases t <;> rfl
    | notANumber | zero t => rfl
  | finite s m e _ =>
    cases y with
    | infinity t => cases s <;> cases t <;> rfl
    | notANumber | zero t => cases s <;> rfl
    | finite t n f _ =>
      -- Only numbers with the same sign are compared by their parts.
      cases s <;> cases t
      · exact congrArg (some ∘ Ordering.swap) (hparts e f m n)
      · rfl
      · rfl
      · exact congrArg some (hparts e f m n)

namespace Binary

/-- The order of two floats is that of the numbers that they stand for. -/
theorem order?_eq_compare (x y : Float) :
    order? x y = x.toModel.unpack.compare y.toModel.unpack := by
  have hlt : ∀ x y : Float, x.lt y = (x.toModel.unpack.compare y.toModel.unpack == some .lt) := by
    intro x y
    unfold Float.lt
    by_cases h : x.toModel < y.toModel
    · rw [decide_eq_true h]
      exact h.symm
    · rw [decide_eq_false h]
      exact (Bool.eq_false_iff.mpr h).symm
  have hless : x < y ↔ x.toModel.unpack.compare y.toModel.unpack = some .lt := by
    rw [← beq_iff_eq, ← hlt]
    exact Iff.rfl
  have hgreater : y < x ↔ x.toModel.unpack.compare y.toModel.unpack = some .gt := by
    have hswap : y < x ↔ y.toModel.unpack.compare x.toModel.unpack = some .lt := by
      rw [← beq_iff_eq, ← hlt]
      exact Iff.rfl
    rw [hswap, compare_unpacked_swap]
    rcases x.toModel.unpack.compare y.toModel.unpack with _ | order
    · simp
    · cases order <;> simp
  have hequal : (x == y) = true ↔ x.toModel.unpack.compare y.toModel.unpack = some .eq := by
    change (x.toModel.unpack.compare y.toModel.unpack == some .eq) = true ↔ _
    exact beq_iff_eq
  unfold order?
  simp only [hless, hgreater, hequal]
  rcases x.toModel.unpack.compare y.toModel.unpack with _ | order
  · simp
  · cases order <;> simp

/-- The order of two floats turns with them, where there is one. -/
theorem order?_swap (x y : Float) : order? y x = (order? x y).map Ordering.swap := by
  rw [order?_eq_compare, order?_eq_compare, compare_unpacked_swap]

end Binary

/-- The order of two decimals turns with them. -/
theorem Decimal.compare_swap (x y : Decimal) : y.compare x = (x.compare y).swap :=
  compare_swap_of_oriented _ _

/-- The order of two instants turns with them. -/
theorem DateTime.compare_swap (x y : DateTime) : y.compare x = (x.compare y).swap := by
  unfold DateTime.compare
  rw [Ordering.swap_then, Ordering.swap_then, ← compare_swap_of_oriented,
    ← compare_swap_of_oriented, ← compare_swap_of_oriented]

namespace Value

variable {op : Operator} {a b : Value} {ty : Ty}

/-- The order of two numbers turns with them. -/
theorem compareNumbers_swap (a b : Value) :
    compareNumbers b a = (compareNumbers a b).map Ordering.swap := by
  have hintegers : ∀ x y : Int, some (Ord.compare y x) = (some (Ord.compare x y)).map .swap :=
    fun x y => congrArg some (compare_swap_of_oriented x y)
  have hnaturals : ∀ x y : Nat, some (Ord.compare y x) = (some (Ord.compare x y)).map .swap :=
    fun x y => congrArg some (compare_swap_of_oriented x y)
  have hdecimals : ∀ x y : Decimal, some (y.compare x) = (some (x.compare y)).map .swap :=
    fun x y => congrArg some (x.compare_swap y)
  cases a <;> cases b <;>
    first
    | rfl
    | exact Binary.order?_swap _ _
    | exact hdecimals _ _
    | exact hintegers _ _
    | exact hnaturals _ _

/-- The order of two values turns with them. -/
theorem compare_swap (a b : Value) : compare b a = (compare a b).map Ordering.swap := by
  cases a with
  | null => cases b <;> rfl
  | boolean x =>
    cases b with
    | boolean y => exact congrArg some (compare_swap_of_oriented x y)
    | _ => rfl
  | text x =>
    cases b with
    | text y => exact congrArg some (compare_swap_of_oriented x y)
    | _ => rfl
  | guid x =>
    cases b with
    | guid y => exact congrArg some (compare_swap_of_oriented x.bits.toNat y.bits.toNat)
    | _ => rfl
  | dateTime x =>
    cases b with
    | dateTime y => exact congrArg some (x.compare_swap y)
    | _ => rfl
  | enum type _ x =>
    cases b with
    | enum type' _ y =>
      simp only [compare]
      by_cases htype : type = type'
      · rw [if_pos htype, if_pos htype.symm]
        exact congrArg some (compare_swap_of_oriented x.toInt y.toInt)
      · rw [if_neg htype, if_neg (Ne.symm htype)]
        rfl
    | _ => rfl
  | int _ | uint _ | float _ | decimal _ =>
    cases b <;> first | rfl | (simp only [compare]; exact compareNumbers_swap _ _)
  | list _ | object _ _ | record _ _ => cases b <;> rfl

/-- Values one of which has no parts are equal if their order says so. -/
theorem same_eq_compare (h : a.isScalar = true ∨ b.isScalar = true) :
    same a b = decide (compare a b = some .eq) := by
  cases a with
  | enum type _ x =>
    cases b with
    | enum type' _ y =>
      unfold same compare
      by_cases htype : type = type'
      · simp [htype, Int64.toInt_inj]
      · simp [htype]
    | _ => rfl
  | list _ | object _ _ | record _ _ =>
    cases b with
    | list _ | object _ _ | record _ _ => exact absurd h (by simp [isScalar])
    | _ => rfl
  | _ => cases b <;> rfl

/-- Equality is symmetric where one of the values has no parts. -/
theorem same_comm_of_isScalar (h : a.isScalar = true ∨ b.isScalar = true) :
    same a b = same b a := by
  rw [same_eq_compare h, same_eq_compare h.symm, compare_swap a b, decide_eq_decide]
  rcases compare a b with _ | order
  · simp
  · cases order <;> simp

/-- No object inside of a value has two members of one name. -/
inductive Unambiguous : Value → Prop
  | scalar {value : Value} (h : value.isScalar = true) : Unambiguous value
  | list {items : List Value} (hitems : ∀ item ∈ items, Unambiguous item) :
      Unambiguous (.list items)
  | object {type : String} {members : List (String × Value)}
      (hnames : (Entries.names members).Nodup)
      (hvalues : ∀ member ∈ members, Unambiguous member.2) : Unambiguous (.object type members)
  | record {fields : Signature} {values : List Value}
      (hvalues : ∀ value ∈ values, Unambiguous value) : Unambiguous (.record fields values)

/-- Lists are compared alike from both sides if their items are. -/
theorem sameItems_comm {items others : List Value}
    (h : ∀ item ∈ items, ∀ other ∈ others, same item other = same other item) :
    sameItems items others = sameItems others items := by
  induction items generalizing others with
  | nil => cases others <;> rfl
  | cons item rest ih =>
    cases others with
    | nil => rfl
    | cons other others =>
      unfold sameItems
      rw [h item List.mem_cons_self other List.mem_cons_self,
        ih fun item hitem other hother =>
          h item (List.mem_cons_of_mem _ hitem) other (List.mem_cons_of_mem _ hother)]

/-- Members are the same if each is found among the others with the same value. -/
theorem sameMembers_iff {members others : List (String × Value)} :
    sameMembers members others = true ↔
      ∀ member ∈ members, ∃ value, Entries.find? others member.1 = some value ∧
        same member.2 value = true := by
  induction members with
  | nil => simp [sameMembers]
  | cons member rest ih =>
    unfold sameMembers
    rw [Bool.and_eq_true, ih, List.forall_mem_cons]
    refine and_congr_left fun _ => ?_
    unfold Entries.find?
    cases List.lookup member.1 others <;> simp

/-- Of two objects with as many members, each has the members of the other. -/
theorem sameMembers_of_sameMembers {members others : List (String × Value)}
    (hnames : (Entries.names members).Nodup) (hnames' : (Entries.names others).Nodup)
    (hlength : members.length = others.length)
    (hcomm : ∀ member ∈ members, ∀ other ∈ others, same member.2 other.2 = same other.2 member.2)
    (h : sameMembers members others = true) : sameMembers others members = true := by
  rw [sameMembers_iff] at h ⊢
  have hsubset : Entries.names members ⊆ Entries.names others := by
    intro name hname
    obtain ⟨member, hmember, rfl⟩ := List.mem_map.mp hname
    obtain ⟨value, hvalue, -⟩ := h member hmember
    exact List.mem_map.mpr ⟨_, Entries.mem_of_find? hvalue, rfl⟩
  have hperm : (Entries.names members).Perm (Entries.names others) := by
    refine (List.subperm_of_subset hnames hsubset).perm_of_length_le ?_
    unfold Entries.names
    rw [List.length_map, List.length_map]
    exact Nat.le_of_eq hlength.symm
  intro other hother
  have hname : other.1 ∈ Entries.names members :=
    hperm.mem_iff.mpr (List.mem_map_of_mem hother)
  obtain ⟨member, hmember, hsame⟩ := List.mem_map.mp hname
  obtain ⟨value, hvalue, hequal⟩ := h member hmember
  have hother' := Entries.find?_of_mem_of_nodup hnames' hother
  rw [hsame, hother'] at hvalue
  cases hvalue
  refine ⟨member.2, ?_, (hcomm member hmember other hother).symm.trans hequal⟩
  rw [← hsame]
  exact Entries.find?_of_mem_of_nodup hnames hmember

/-- Equality is symmetric. -/
theorem Unambiguous.same_comm (ha : a.Unambiguous) (hb : b.Unambiguous) :
    same a b = same b a := by
  induction ha generalizing b with
  | scalar h => exact same_comm_of_isScalar (.inl h)
  | @list items _ ih =>
    cases hb with
    | scalar h => exact same_comm_of_isScalar (.inr h)
    | list hothers =>
      exact sameItems_comm fun item hitem other hother => ih item hitem (hothers other hother)
    | object _ _ | record _ => rfl
  | @object type members hnames _ ih =>
    cases hb with
    | scalar h => exact same_comm_of_isScalar (.inr h)
    | @object type' others hnames' hothers =>
      have hcomm : ∀ member ∈ members, ∀ other ∈ others,
          same member.2 other.2 = same other.2 member.2 :=
        fun member hmember other hother => ih member hmember (hothers other hother)
      unfold same
      by_cases htype : type = type'
      · by_cases hlength : members.length = others.length
        · rw [decide_eq_true htype, decide_eq_true htype.symm, decide_eq_true hlength,
            decide_eq_true hlength.symm, Bool.true_and, Bool.true_and, Bool.eq_iff_iff]
          exact ⟨sameMembers_of_sameMembers hnames hnames' hlength hcomm,
            sameMembers_of_sameMembers hnames' hnames hlength.symm
              fun other hother member hmember => (hcomm member hmember other hother).symm⟩
        · rw [decide_eq_false hlength, decide_eq_false (Ne.symm hlength)]
          simp
      · rw [decide_eq_false htype, decide_eq_false (Ne.symm htype)]
        rfl
    | list _ | record _ => rfl
  | @record fields values _ ih =>
    cases hb with
    | scalar h => exact same_comm_of_isScalar (.inr h)
    | @record fields' others hothers =>
      unfold same
      rw [sameItems_comm fun item hitem other hother => ih item hitem (hothers other hother),
        decide_eq_decide.mpr eq_comm]
    | list _ | object _ _ => rfl

/-- A comparison and its mirror come to the same. -/
def Agree (outcome mirrored : Except RunFault Value) : Prop :=
  (∃ result, outcome = .ok (.boolean result) ∧ mirrored = .ok (.boolean result)) ∨
    ∃ fault other, outcome = .error fault ∧ mirrored = .error other

/-- Operands fail in one order if they fail in the other. -/
theorem Agree.bind {first second : Except RunFault Value}
    {next mirrored : Value → Value → Except RunFault Value}
    (h : ∀ a b, first = .ok a → second = .ok b → Agree (next a b) (mirrored b a)) :
    Agree (first >>= fun a => second >>= fun b => next a b)
      (second >>= fun b => first >>= fun a => mirrored b a) := by
  cases first with
  | error fault =>
    cases second with
    | error other => exact .inr ⟨fault, other, rfl, rfl⟩
    | ok b => exact .inr ⟨fault, fault, rfl, rfl⟩
  | ok a =>
    cases second with
    | error other => exact .inr ⟨other, other, rfl, rfl⟩
    | ok b => exact h a b rfl rfl

/-- A comparison of two values and its mirror come to the same. -/
theorem agree_apply (hop : op.isComparison = true)
    (hsame : op.isEquality = true → same a b = same b a) :
    Agree (op.apply ty a b) (op.mirror.apply ty b a) := by
  unfold Operator.apply
  rw [Operator.isEquality_mirror, Operator.isRelational_mirror]
  cases hequality : op.isEquality with
  | true =>
    rw [Operator.mirror_of_isEquality hequality, hsame hequality]
    exact .inl ⟨_, rfl, rfl⟩
  | false =>
    have hrelational : op.isRelational = true := by
      unfold Operator.isComparison at hop
      rwa [hequality, Bool.false_or] at hop
    rw [hrelational, Bool.or_comm b.isNull, compare_swap a b]
    cases a.isNull || b.isNull with
    | true => exact .inl ⟨false, rfl, rfl⟩
    | false =>
      rcases compare a b with _ | order
      · exact .inr ⟨_, _, rfl, rfl⟩
      · exact .inl ⟨op.holds order, rfl,
          congrArg (Except.ok ∘ boolean) (Operator.holds_mirror hrelational order)⟩

end Value

end TypedQuery
