import TypedQuery.Document.Basic

/-!
# Equality of documents

Two documents are equal if they have the same definitions, with the positions of all selections. It
can be computed whether they are, so that the outcome of reading a text can be tested.
-/

namespace TypedQuery

/-! ### Arguments -/

namespace Argument

mutual

/-- Two values of arguments have the same structure. -/
def same : Argument → Argument → Bool
  | literal a, literal b => a = b
  | enum a, enum b => a = b
  | var a, var b => a = b
  | list as, list bs => sameItems as bs
  | object as, object bs => sameMembers as bs
  | _, _ => false

/-- Two lists have the same items in the same order. -/
def sameItems : List Argument → List Argument → Bool
  | [], [] => true
  | a :: as, b :: bs => same a b && sameItems as bs
  | _, _ => false

/-- Two lists of members have the same names and values in the same order. -/
def sameMembers : List (String × Argument) → List (String × Argument) → Bool
  | [], [] => true
  | (m, a) :: as, (n, b) :: bs => m = n && same a b && sameMembers as bs
  | _, _ => false

end

mutual

/-- Having the same structure is equality. -/
theorem same_iff (a b : Argument) : same a b = true ↔ a = b := by
  cases a with
  | list as => cases b <;> simp [same, sameItems_iff as]
  | object as => cases b <;> simp [same, sameMembers_iff as]
  | literal _ | enum _ | var _ => cases b <;> simp [same]

/-- Items are found to be the same exactly if they are. -/
theorem sameItems_iff (as bs : List Argument) : sameItems as bs = true ↔ as = bs := by
  match as, bs with
  | [], [] | [], _ :: _ | _ :: _, [] => simp [sameItems]
  | a :: as, b :: bs => rw [sameItems, Bool.and_eq_true, same_iff, sameItems_iff, List.cons.injEq]

/-- Members are found to be the same exactly if they are. -/
theorem sameMembers_iff (as bs : List (String × Argument)) :
    sameMembers as bs = true ↔ as = bs := by
  match as, bs with
  | [], [] | [], _ :: _ | _ :: _, [] => simp [sameMembers]
  | (m, a) :: as, (n, b) :: bs =>
    rw [sameMembers, Bool.and_eq_true, Bool.and_eq_true, decide_eq_true_iff, same_iff,
      sameMembers_iff, List.cons.injEq, Prod.mk.injEq]

end

instance : DecidableEq Argument := fun a b => decidable_of_iff (same a b = true) (same_iff a b)

end Argument

/-! ### Selections -/

namespace Selection

mutual

/-- Two selections have the same structure and positions. -/
def same : Selection → Selection → Bool
  | field m alias? arguments as p, field n other? others bs q =>
    m = n && alias? = other? && arguments = others && sameList as bs && p = q
  | spread m p, spread n q => m = n && p = q
  | _, _ => false

/-- Two lists have the same selections in the same order. -/
def sameList : List Selection → List Selection → Bool
  | [], [] => true
  | a :: as, b :: bs => same a b && sameList as bs
  | _, _ => false

end

mutual

/-- Having the same structure and positions is equality. -/
theorem same_iff (a b : Selection) : same a b = true ↔ a = b := by
  cases a with
  | spread _ _ => cases b <;> simp [same]
  | field m alias? arguments as p =>
    cases b with
    | spread _ _ => simp [same]
    | field n other? others bs q =>
      simp only [same, Bool.and_eq_true, decide_eq_true_eq, sameList_iff, field.injEq]
      exact ⟨fun ⟨⟨⟨⟨hname, halias⟩, harguments⟩, hselections⟩, hposition⟩ =>
          ⟨hname, halias, harguments, hselections, hposition⟩,
        fun ⟨hname, halias, harguments, hselections, hposition⟩ =>
          ⟨⟨⟨⟨hname, halias⟩, harguments⟩, hselections⟩, hposition⟩⟩

/-- Selections are found to be the same exactly if they are. -/
theorem sameList_iff (as bs : List Selection) : sameList as bs = true ↔ as = bs := by
  match as, bs with
  | [], [] | [], _ :: _ | _ :: _, [] => simp [sameList]
  | a :: as, b :: bs => rw [sameList, Bool.and_eq_true, same_iff, sameList_iff, List.cons.injEq]

end

instance : DecidableEq Selection := fun a b => decidable_of_iff (same a b = true) (same_iff a b)

end Selection

/-! ### Documents -/

deriving instance DecidableEq for VariableDefinition, Operation, Fragment, Document

end TypedQuery
