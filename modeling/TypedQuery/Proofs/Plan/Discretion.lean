import TypedQuery.Proofs.Plan.Preservation
import TypedQuery.Proofs.Value.Veiling

/-!
# Discreet plans

A plan is discreet if no node decides by a value from which a hidden member can be reached, hands
it to the host or makes it dynamic. Where nothing but hidden members tells two environments apart,
a discreet plan gives the same fault or values that nothing but hidden members tells apart.
-/

namespace TypedQuery

/-- The operation looks at nothing that is hidden in an operand of a type. -/
def UnaryOp.Discreet (veil : Veil) (op : UnaryOp) (operand ty : Ty) : Prop :=
  match op with
  | .member _ => True
  | .not | .inSet _ | .distinct => veil.Clear operand
  | .convert => veil.Clear operand ∨ operand.core = ty.core
  | .reduce _ => veil.Clear operand ∨ operand.isSequence = true

/-- The operation looks at nothing that is hidden in its operands. Values may be compared with
constants. -/
def BinaryOp.Discreet (veil : Veil) (op : BinaryOp) (left right : Plan) : Prop :=
  match op with
  | .operator op => veil.Clear left.ty ∧ veil.Clear right.ty ∨
      op.isEquality = true ∧ (left.constant?.isSome = true ∨ right.constant?.isSome = true)
  | .compareText | .textTest _ => veil.Clear left.ty ∧ veil.Clear right.ty
  | .take | .skip => veil.Clear right.ty

/-- Predicates and keys are nothing from which a hidden member can be reached. -/
def Binder.Discreet (veil : Veil) (binder : Binder) (body : Ty) : Prop :=
  match binder with
  | .filter | .orderBy _ => veil.Clear body
  | .project | .given => True

namespace Plan

mutual

/-- No node looks at what is hidden, hands it to the host or makes it dynamic. -/
def Discreet (veil : Veil) : Plan → Prop
  | const _ _ | param _ _ => True
  | unary ty op operand => op.Discreet veil operand.ty ty ∧ Discreet veil operand
  | binary _ op left right =>
    op.Discreet veil left right ∧ Discreet veil left ∧ Discreet veil right
  | cond ty test yes no =>
    veil.Clear test.ty ∧ (ty = .any → veil.Clear yes.ty ∧ veil.Clear no.ty) ∧
      Discreet veil test ∧ Discreet veil yes ∧ Discreet veil no
  | bind _ binder source _ body =>
    binder.Discreet veil body.ty ∧ Discreet veil source ∧ Discreet veil body
  | record _ _ values => DiscreetAll veil values
  | call _ _ _ _ arguments =>
    (∀ argument ∈ arguments, veil.Clear argument.ty) ∧ DiscreetAll veil arguments

/-- The same for a list of plans. -/
def DiscreetAll (veil : Veil) : List Plan → Prop
  | [] => True
  | plan :: rest => Discreet veil plan ∧ DiscreetAll veil rest

end

/-- Each of several discreet plans is discreet. -/
theorem DiscreetAll.of_mem {veil : Veil} {plans : List Plan} {plan : Plan}
    (h : DiscreetAll veil plans) (hplan : plan ∈ plans) : plan.Discreet veil := by
  induction plans with
  | nil => cases hplan
  | cons first rest ih =>
    unfold DiscreetAll at h
    rcases List.mem_cons.mp hplan with rfl | hplan
    · exact h.1
    · exact ih h.2 hplan

end Plan

namespace Veil

variable {veil : Veil} {ty a b : Ty} {v w v' w' : Value}

/-- An item of a list, or its length. -/
theorem hides_reduced {items others : List Value} {element : Ty} (reduction : Reduction)
    (h : List.Forall₂ (veil.Hides element) items others) :
    veil.Hides (Plan.reducedTy (.list element) reduction) (reduction.apply items)
      (reduction.apply others) := by
  have hitem : ∀ {item? other? : Option Value}, Option.Rel (veil.Hides element) item? other? →
      veil.Hides element.orNull (item?.getD .null) (other?.getD .null) := by
    intro item? other? hrel
    cases hrel with
    | none => exact .refl
    | some hrel => exact hrel.of_core_eq (Ty.core_orNull element).symm
  cases reduction with
  | first =>
    have hhead := rel_getElem?_of_forall₂ h 0
    rw [← List.head?_eq_getElem?, ← List.head?_eq_getElem?] at hhead
    exact hitem hhead
  | last =>
    have hlast := rel_getElem?_of_forall₂ h (items.length - 1)
    rw [← List.getLast?_eq_getElem?, h.length_eq, ← List.getLast?_eq_getElem?] at hlast
    exact hitem hlast
  | count =>
    unfold Reduction.apply
    rw [h.length_eq]
    exact .refl

/-- A discreet operation on an operand behind the veil. -/
theorem parallel_unary {op : UnaryOp} (h : veil.Hides a v w) (hfits : op.Fits veil.visible a ty)
    (hdiscreet : op.Discreet veil a ty) :
    Parallel (veil.Hides ty) (op.apply ty v) (op.apply ty w) := by
  have hclear : veil.Clear a → Parallel (veil.Hides ty) (op.apply ty v) (op.apply ty w) := by
    intro hclear
    rw [h.eq_of_clear hclear]
    exact .refl (fun _ => .refl) _
  cases op with
  | member name => exact h.readMember hfits
  | not => exact hclear hdiscreet
  | inSet set => exact hclear hdiscreet
  | distinct => exact hclear hdiscreet
  | convert => exact hdiscreet.elim hclear h.convert
  | reduce reduction =>
    refine hdiscreet.elim hclear fun hsequence => ?_
    cases a with
    | list element =>
      refine .bind (h.sequence rfl) fun items? others? hitems => ?_
      cases hitems with
      | none => exact .ok .refl
      | some hitems =>
        rw [show ty = Plan.reducedTy (.list element) reduction from hfits]
        exact .ok (hides_reduced reduction hitems)
    | _ => cases hsequence

/-- A scalar is equal to one of two values behind the veil exactly if it is equal to the other. -/
theorem Hides.same_scalar {scalar : Value} (h : veil.Hides ty v w)
    (hscalar : scalar.isScalar = true) :
    Value.same scalar v = Value.same scalar w ∧ Value.same v scalar = Value.same w scalar := by
  cases h with
  | refl => exact ⟨rfl, rfl⟩
  | list _ _ | object _ _ _ | record _ _ =>
    cases scalar <;> first | exact ⟨rfl, rfl⟩ | cases hscalar

/-- Two left operands behind the veil decide in the same way. -/
theorem Hides.decided?_eq {op : BinaryOp} {left right : Plan} (h : veil.Hides left.ty v w)
    (hdiscreet : op.Discreet veil left right) : op.decided? v = op.decided? w := by
  cases op with
  | operator op =>
    rcases hdiscreet with hclear | ⟨hequality, _⟩
    · rw [h.eq_of_clear hclear.1]
    · cases op with
      | equal | notEqual => rfl
      | _ => cases hequality
  | compareText | textTest _ => rfl
  | take | skip => cases h <;> rfl

/-- The same count cuts the same part of lists behind the veil. -/
theorem parallel_counted {element : Ty} {items others : List Value}
    {cut : Nat → List Value → List Value}
    (h : List.Forall₂ (veil.Hides element) items others) (hcore : ty.core = .list element)
    (hcut : ∀ n, List.Forall₂ (veil.Hides element) (cut n items) (cut n others)) (count : Value) :
    Parallel (veil.Hides ty) (do return .list (cut (← countOf items.length count) items))
      (do return .list (cut (← countOf others.length count) others)) := by
  rw [h.length_eq]
  refine .bind (.self _) ?_
  rintro n _ rfl
  exact .ok (.of_items (hcut n) hcore)

/-- A part of a list behind the veil. -/
theorem parallel_cut {op : BinaryOp} (h : veil.Hides ty v w) (hop : op = .take ∨ op = .skip)
    (count : Value) : Parallel (veil.Hides ty) (op.apply ty v count) (op.apply ty w count) := by
  cases h with
  | refl => exact .refl (fun _ => .refl) _
  | list hlist hitems =>
    have hpairs := hides_items_of_pairs hitems
    rcases hop with rfl | rfl
    · exact parallel_counted hpairs hlist (fun n => List.forall₂_take n hpairs) count
    · exact parallel_counted hpairs hlist (fun n => List.forall₂_drop n hpairs) count
  | object _ _ _ | record _ _ => rcases hop with rfl | rfl <;> exact .error _

/-- A discreet operation on two operands, of which the left one does not decide alone. -/
theorem parallel_binary {op : BinaryOp} {left right : Plan} (h : veil.Hides left.ty v w)
    (h' : veil.Hides right.ty v' w') (hfits : op.Fits left.ty right.ty ty)
    (hdiscreet : op.Discreet veil left right)
    (hleft : ∀ value, left.constant? = some value → v = value ∧ w = value ∧ value.isScalar = true)
    (hright : ∀ value, right.constant? = some value →
      v' = value ∧ w' = value ∧ value.isScalar = true) :
    Parallel (veil.Hides ty) (op.apply ty v v') (op.apply ty w w') := by
  have hclear : veil.Clear left.ty ∧ veil.Clear right.ty →
      Parallel (veil.Hides ty) (op.apply ty v v') (op.apply ty w w') := by
    rintro ⟨hl, hr⟩
    rw [h.eq_of_clear hl, h'.eq_of_clear hr]
    exact .refl (fun _ => .refl) _
  cases op with
  | operator op =>
    refine hdiscreet.elim hclear ?_
    rintro ⟨hequality, hconstant⟩
    have hsame : Value.same v v' = Value.same w w' := by
      rcases hconstant with hconstant | hconstant
      · obtain ⟨value, hvalue⟩ := Option.isSome_iff_exists.mp hconstant
        obtain ⟨rfl, rfl, hscalar⟩ := hleft value hvalue
        exact (h'.same_scalar hscalar).1
      · obtain ⟨value, hvalue⟩ := Option.isSome_iff_exists.mp hconstant
        obtain ⟨rfl, rfl, hscalar⟩ := hright value hvalue
        exact (h.same_scalar hscalar).2
    have happly : op.apply ty v v' = op.apply ty w w' := by
      unfold Operator.apply
      rw [if_pos hequality, if_pos hequality, hsame]
    have hoperator : (BinaryOp.operator op).apply ty v v' =
        (BinaryOp.operator op).apply ty w w' := by
      cases op with
      | equal | notEqual => exact happly
      | _ => cases hequality
    rw [hoperator]
    exact .refl (fun _ => .refl) _
  | compareText => exact hclear hdiscreet
  | textTest test => exact hclear hdiscreet
  | take =>
    rw [h'.eq_of_clear hdiscreet, show ty = left.ty from hfits]
    exact parallel_cut h (Or.inl rfl) w'
  | skip =>
    rw [h'.eq_of_clear hdiscreet, show ty = left.ty from hfits]
    exact parallel_cut h (Or.inr rfl) w'

/-- Items behind the veil with equal keys. -/
def Keyed (veil : Veil) (ty : Ty) (pair other : Value × Value) : Prop :=
  pair.1 = other.1 ∧ veil.Hides ty pair.2 other.2

/-- Items with keys that look alike are inserted at the same place. -/
theorem keyed_insertKeyed {precedes : Value → Value → Bool} {item other : Value × Value}
    {sorted others : List (Value × Value)} (hitem : veil.Keyed ty item other)
    (h : List.Forall₂ (veil.Keyed ty) sorted others) :
    List.Forall₂ (veil.Keyed ty) (Value.insertKeyed precedes item sorted)
      (Value.insertKeyed precedes other others) := by
  induction h with
  | nil => exact .cons hitem .nil
  | cons hlast hrest ih =>
    unfold Value.insertKeyed
    rw [hitem.1, hlast.1]
    split
    · exact .cons hlast ih
    · exact .cons hitem (.cons hlast hrest)

/-- Equal keys sort items behind the veil in the same way. -/
theorem hides_sortKeyed {keyed others : List (Value × Value)} (descending : Bool)
    (h : List.Forall₂ (veil.Keyed ty) keyed others) :
    List.Forall₂ (veil.Hides ty) (Value.sortKeyed descending keyed)
      (Value.sortKeyed descending others) := by
  have hfold : ∀ {sorted sorted' : List (Value × Value)},
      List.Forall₂ (veil.Keyed ty) sorted sorted' →
      List.Forall₂ (veil.Keyed ty)
        (keyed.foldl (fun sorted item => Value.insertKeyed (Value.precedes descending) item sorted)
          sorted)
        (others.foldl (fun sorted item => Value.insertKeyed (Value.precedes descending) item sorted)
          sorted') := by
    induction h with
    | nil => exact fun hsorted => hsorted
    | cons hfirst _ ih => exact fun hsorted => ih (keyed_insertKeyed hfirst hsorted)
  have hsorted := List.rel_reverse (hfold .nil)
  unfold Value.sortKeyed
  rw [List.forall₂_map_left_iff, List.forall₂_map_right_iff]
  exact hsorted.imp fun _ _ h => h.2

/-- A discreet binder of a parameter behind the veil. -/
theorem parallel_binder {binder : Binder} {item : Ty} {f g : Value → Except RunFault Value}
    (h : veil.Hides a v w) (hfits : binder.Fits a item b ty) (hdiscreet : binder.Discreet veil b)
    (hbody : ∀ v w, veil.Hides item v w → Parallel (veil.Hides b) (f v) (g w)) :
    Parallel (veil.Hides ty) (binder.apply v f) (binder.apply w g) := by
  cases binder with
  | filter =>
    obtain ⟨rfl, rfl⟩ := hfits
    refine .bind (h.sequence rfl) fun items? others? hitems => ?_
    cases hitems with
    | none => exact .ok .refl
    | some hitems =>
      refine .bind (.filterM hitems fun v w hitem => ?_) fun kept kept' hkept =>
        .ok (.of_items hkept rfl)
      rw [eq_of_clear (hbody v w hitem) hdiscreet]
      exact .self _
  | project =>
    obtain ⟨rfl, rfl⟩ := hfits
    refine .bind (h.sequence rfl) fun items? others? hitems => ?_
    cases hitems with
    | none => exact .ok .refl
    | some hitems =>
      exact .bind (.mapM hitems hbody) fun _ _ hresults => .ok (.of_items hresults rfl)
  | orderBy descending =>
    obtain ⟨rfl, rfl⟩ := hfits
    refine .bind (h.sequence rfl) fun items? others? hitems => ?_
    cases hitems with
    | none => exact .ok .refl
    | some hitems =>
      refine .bind (.mapM (q := veil.Keyed item) hitems fun v w hitem => ?_)
        fun keyed keyed' hkeyed => .ok (.of_items (hides_sortKeyed descending hkeyed) rfl)
      rw [eq_of_clear (hbody v w hitem) hdiscreet]
      exact .bind (.self _) fun _ _ hkey => .ok ⟨hkey, hitem⟩
  | given =>
    obtain ⟨rfl, rfl⟩ := hfits
    unfold Binder.apply
    dsimp only
    rw [h.isNull_eq]
    by_cases hnull : w.isNull = true
    · rw [if_pos hnull, if_pos hnull]
      exact .ok .refl
    · rw [if_neg hnull, if_neg hnull]
      exact (hbody v w (h.of_core_eq (Ty.core_underlying a).symm)).mono
        fun _ _ hresult => hresult.of_core_eq (Ty.core_orNull b).symm

/-- Records with values behind the veil. -/
theorem hides_newRecord {fields : Signature} {pairs : List (Value × Value)}
    (h : List.Forall₂ (fun field pair => veil.Hides field.2 pair.1 pair.2) fields pairs) :
    veil.Hides (.record fields) (.newRecord fields (pairs.map Prod.fst))
      (.newRecord fields (pairs.map Prod.snd)) := by
  have hlength : fields.length = pairs.length := h.length_eq
  rw [Value.newRecord_of_length (by simp [hlength]), Value.newRecord_of_length (by simp [hlength])]
  obtain ⟨cells, rfl, rfl, hcells⟩ := exists_pairs_of_forall₂ h
  rw [List.map_map, List.map_map]
  exact .record rfl hcells

end Veil

/-- Nothing but hidden members tells two environments apart at the types of their parameters. -/
def Environment.Veiled (veil : Veil) (Γ : Typing) (environment other : Environment) : Prop :=
  ∀ name ty, Γ name ty →
    Option.Rel (veil.Hides ty) (environment.lookup name) (other.lookup name)

/-- Environments that look alike do so with values that look alike. -/
theorem Environment.Veiled.bind {veil : Veil} {Γ : Typing} {environment other : Environment}
    {name : String} {item : Ty} {v w : Value} (h : environment.Veiled veil Γ other)
    (hvalue : veil.Hides item v w) :
    Environment.Veiled veil (Γ.bind name item) ((name, v) :: environment) ((name, w) :: other) := by
  intro free ty hty
  by_cases hname : free = name
  · subst hname
    unfold Typing.bind at hty
    rw [if_pos rfl] at hty
    rw [List.lookup_cons_self, List.lookup_cons_self]
    exact .some (hty ▸ hvalue)
  · rw [List.lookup_cons, List.lookup_cons, beq_false_of_ne hname]
    exact h free ty ((Typing.bind_of_ne hname).mp hty)

namespace Plan

variable {veil : Veil} {A : Assumptions} {listed : List String} {Γ : Typing} {plan : Plan}
variable {services : Services} {environment other : Environment}

/-- Plans that give values behind the veil one by one. -/
theorem parallel_evalAll {plans : List Plan}
    (h : ∀ plan ∈ plans, Parallel (veil.Hides plan.ty) (plan.eval services environment)
      (plan.eval services other)) :
    Parallel (fun values others => ∃ pairs : List (Value × Value), values = pairs.map Prod.fst ∧
        others = pairs.map Prod.snd ∧
        List.Forall₂ (fun plan pair => veil.Hides plan.ty pair.1 pair.2) plans pairs)
      (evalAll services environment plans) (evalAll services other plans) := by
  induction plans with
  | nil =>
    unfold evalAll
    exact .ok ⟨[], rfl, rfl, .nil⟩
  | cons plan rest ih =>
    unfold evalAll
    refine .bind (h plan List.mem_cons_self) fun v w hvalue => ?_
    refine .bind (ih fun other hother => h other (List.mem_cons_of_mem _ hother)) ?_
    rintro _ _ ⟨pairs, rfl, rfl, hpairs⟩
    exact .ok ⟨(v, w) :: pairs, rfl, rfl, .cons hvalue hpairs⟩

/-- Constants in typed plans are scalars. -/
theorem Typed.isScalar_of_constant? (h : Typed A listed Γ plan) {value : Value}
    (hconstant : plan.constant? = some value) : value.isScalar = true := by
  cases h with
  | const hscalar _ =>
    cases hconstant
    exact hscalar
  | _ => cases hconstant

/-- Where nothing but hidden members tells the parameters apart, nothing but hidden members tells
the values of a discreet plan apart. -/
theorem Typed.parallel_eval (h : Typed A listed Γ plan) (hmembers : A.members = veil.visible)
    (hdiscreet : plan.Discreet veil) (henvironment : environment.Veiled veil Γ other) :
    Parallel (veil.Hides plan.ty) (plan.eval services environment) (plan.eval services other) := by
  -- on the typing of the plan; inside of a binder the environments are veiled with the items
  induction h generalizing environment other with
  | const _ _ =>
    unfold eval
    exact .ok .refl
  | @param Γ ty name hparam =>
    have hlookup := henvironment name ty hparam
    unfold eval
    generalize environment.lookup name = value? at hlookup ⊢
    generalize other.lookup name = other? at hlookup ⊢
    cases hlookup with
    | none => exact .error _
    | some hvalue => exact .ok hvalue
  | unary _ hfits ih =>
    unfold Discreet at hdiscreet
    unfold eval
    exact .bind (ih hdiscreet.2 henvironment) fun v w hvalue =>
      Veil.parallel_unary hvalue (hmembers ▸ hfits) hdiscreet.1
  | @binary Γ ty op left right hleft hright hfits ihl ihr =>
    unfold Discreet at hdiscreet
    obtain ⟨hop, hl, hr⟩ := hdiscreet
    unfold eval
    refine .bind (ihl hl henvironment).results ?_
    rintro v w ⟨hvalue, hv, hw⟩
    rw [hvalue.decided?_eq hop]
    refine .bind (.self _) ?_
    rintro decided? _ rfl
    cases decided? with
    | some result => exact .ok .refl
    | none =>
      refine .bind (ihr hr henvironment).results ?_
      rintro v' w' ⟨hvalue', hv', hw'⟩
      refine Veil.parallel_binary hvalue hvalue' hfits hop ?_ ?_
      · intro value hconstant
        rw [eval_of_constant? hconstant] at hv hw
        cases hv
        cases hw
        exact ⟨rfl, rfl, hleft.isScalar_of_constant? hconstant⟩
      · intro value hconstant
        rw [eval_of_constant? hconstant] at hv' hw'
        cases hv'
        cases hw'
        exact ⟨rfl, rfl, hright.isScalar_of_constant? hconstant⟩
  | @cond Γ ty test yes no _ _ _ hty iht ihy ihn =>
    unfold Discreet at hdiscreet
    obtain ⟨hclear, hany, ht, hy, hn⟩ := hdiscreet
    have hbranch : ∀ {branch : Plan}, (ty = .any ∨ branch.ty = ty) →
        (ty = .any → veil.Clear branch.ty) →
        Parallel (veil.Hides branch.ty) (branch.eval services environment)
          (branch.eval services other) →
        Parallel (veil.Hides ty) (branch.eval services environment)
          (branch.eval services other) := by
      rintro branch (hty | rfl) hclear hbranch
      · rw [Veil.eq_of_clear hbranch (hclear hty)]
        exact .refl (fun _ => .refl) _
      · exact hbranch
    unfold eval
    -- the test is clear, so that both runs take the same branch
    rw [Veil.eq_of_clear (iht ht henvironment) hclear]
    refine .bind (.self _) ?_
    rintro value _ rfl
    refine .bind (.self _) ?_
    rintro chosen _ rfl
    cases chosen with
    | true =>
      exact hbranch (hty.imp_right And.left) (fun h => (hany h).1) (ihy hy henvironment)
    | false =>
      exact hbranch (hty.imp_right And.right) (fun h => (hany h).2) (ihn hn henvironment)
  | bind _ _ hfits ihs ihb =>
    unfold Discreet at hdiscreet
    obtain ⟨hbinder, hsource, hbody⟩ := hdiscreet
    unfold eval
    exact .bind (ihs hsource henvironment) fun v w hvalue =>
      Veil.parallel_binder hvalue hfits hbinder fun _ _ hitem => ihb hbody (henvironment.bind hitem)
  | @record Γ fields values _ htys ih =>
    unfold Discreet at hdiscreet
    unfold eval
    refine .bind (parallel_evalAll fun plan hplan =>
      ih plan hplan (hdiscreet.of_mem hplan) henvironment) ?_
    rintro _ _ ⟨pairs, rfl, rfl, hpairs⟩
    refine .ok (Veil.hides_newRecord ?_)
    have hvalues : List.Forall₂ (fun ty pair => veil.Hides ty pair.1 pair.2) (values.map Plan.ty)
        pairs := by
      rwa [List.forall₂_map_left_iff]
    rwa [htys, List.forall₂_map_left_iff] at hvalues
  | @call Γ ty name service? run arguments _ _ _ ih =>
    unfold Discreet at hdiscreet
    obtain ⟨hclear, harguments⟩ := hdiscreet
    have hvalues := parallel_evalAll fun plan hplan =>
      ih plan hplan (harguments.of_mem hplan) henvironment
    unfold eval
    refine .bind (.self _) ?_
    rintro service _ rfl
    refine .bind hvalues ?_
    rintro _ _ ⟨pairs, rfl, rfl, hpairs⟩
    -- the host function is given the same arguments, for they are clear
    have heq : pairs.map Prod.fst = pairs.map Prod.snd := by
      refine List.map_congr_left fun pair hpair => ?_
      obtain ⟨argument, hargument, hvalue⟩ := Returns.exists_of_mem_of_forall₂ hpairs hpair
      exact hvalue.eq_of_clear (hclear argument hargument)
    rw [heq]
    exact .refl (fun _ => .refl) _

end Plan

end TypedQuery
