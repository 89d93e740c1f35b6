import TypedQuery.Plan.Graft
import TypedQuery.Proofs.Computation
import TypedQuery.Proofs.Plan.Typing

/-!
# Grafted chains are well typed

A method on a list gives the list again or reduces it. The chain above the list can then be
built again: every node keeps its type, or its type was dynamic and stays so.
-/

namespace TypedQuery

namespace Ty

/-- What a sequence method gives for a list: a list of the type, or a reduction of one. -/
def Follows (source result : Ty) : Prop :=
  result = source ∨ ∃ reduction, result = Plan.reducedTy source reduction

/-- The types are the same, or both are dynamic. -/
def Matches (a b : Ty) : Prop :=
  a = b ∨ a.underlying = .any ∧ b.underlying = .any

/-- A type matches itself. -/
theorem Matches.refl (ty : Ty) : ty.Matches ty := Or.inl rfl

/-- The type of a sequence is a list. -/
theorem eq_list_of_isSequence {ty : Ty} (h : ty.isSequence = true) :
    ∃ element, ty = .list element := by
  cases ty with
  | list element => exact ⟨element, rfl⟩
  | _ => cases h

end Ty

namespace Plan

variable {A : Assumptions} {Γ : Typing} {node : Node} {plan : Plan} {ty : Ty}

/-- A dynamic type has no elements. -/
theorem element?_of_dynamic (h : ty.underlying = .any) : ty.element? = none := by
  cases ty with
  | list element => cases h
  | _ => rfl

/-- A reduction of what a list was reduced to gives the same type as a reduction of the list,
or a dynamic type. -/
theorem reducedTy_matches {source result : Ty} {reduction : Reduction}
    (hsource : source.isSequence = true) (hfollows : source.Follows result)
    (hresult : result.isReducible = true)
    (hscalar : (reducedTy source reduction).isSequence = false) :
    (reducedTy source reduction).Matches (reducedTy result reduction) := by
  obtain ⟨element, rfl⟩ := Ty.eq_list_of_isSequence hsource
  rcases hfollows with rfl | ⟨inner, rfl⟩
  · exact .refl _
  · cases reduction with
    | count => exact .refl _
    | first | last =>
      cases inner with
      | count => cases hresult
      | first | last =>
        change element.orNull.isReducible = true at hresult
        change element.orNull.isSequence = false at hscalar
        have hdynamic : element.orNull.underlying = .any := by
          simpa [Ty.isReducible, hscalar] using hresult
        refine Or.inr ⟨hdynamic, ?_⟩
        change (Plan.reducedTy element.orNull .first).underlying = .any
        unfold Plan.reducedTy
        dsimp only
        rw [element?_of_dynamic hdynamic]
        rfl

/-- The member of a value keeps its type, or is found dynamic again. -/
theorem member?_of_hasMember {members : Members} {object : Ty} {name : String}
    (h : object.HasMember members name ty) : (object.member? name).getD ty = ty := by
  unfold Ty.HasMember at h
  unfold Ty.member?
  split at h
  · rename_i hobject
    rw [hobject]
    rfl
  · rename_i hrecord
    rw [hrecord]
    change (Signature.type? _ name).getD ty = ty
    rw [h]
    rfl
  · rename_i hany
    rw [hany, h]
    rfl
  · cases h

/-- A link above a value of a matching type is well typed at a matching type. -/
theorem typed_retype_unary {operand : Ty} {op : UnaryOp} (hplan : node.Types A Γ plan)
    (hmatches : operand.Matches plan.ty) (hfits : op.Fits A.members operand ty)
    (hlink : op.isLink = true) (hconvert : op ≠ .convert) :
    node.Types A Γ (unary ty op plan).retype ∧ ty.Matches (unary ty op plan).retype.ty := by
  cases op with
  | member name =>
    change operand.HasMember A.members name ty at hfits
    change node.Types A Γ (unary ((plan.ty.member? name).getD ty) (.member name) plan) ∧
      ty.Matches ((plan.ty.member? name).getD ty)
    rcases hmatches with rfl | ⟨hoperand, hany⟩
    · rw [member?_of_hasMember hfits]
      exact ⟨.unary hplan hfits, .refl _⟩
    · have hty : ty = .any := by
        unfold Ty.HasMember at hfits
        rwa [hoperand] at hfits
      have hmember : plan.ty.HasMember A.members name ty := by
        unfold Ty.HasMember
        rwa [hany]
      rw [member?_of_hasMember hmember]
      exact ⟨.unary hplan hmember, .refl _⟩
  | reduce reduction =>
    change ty = reducedTy operand reduction at hfits
    refine ⟨.unary hplan rfl, ?_⟩
    change ty.Matches (reducedTy plan.ty reduction)
    rw [hfits]
    rcases hmatches with rfl | ⟨hoperand, hany⟩
    · exact .refl _
    · cases reduction with
      | count => exact .refl _
      | first | last =>
        unfold reducedTy
        rw [element?_of_dynamic hoperand, element?_of_dynamic hany]
        exact .refl _
  | convert => exact absurd rfl hconvert
  | not | inSet _ | distinct => cases hlink

end Plan

namespace Node

variable {A : Assumptions} {Γ : Typing} {node base : Node} {ty : Ty}

/-- A good node in the place of a plan of a type: it extends the node of the plan, and its type
is what the chain above the plan can stand on. -/
structure Replaces (A : Assumptions) (Γ : Typing) (node base : Node) (source : Ty) : Prop where
  good : node.Good A Γ
  extended : node.Extends base
  follows : source.isSequence = true → source.Follows node.ty
  sameType : source.isSequence = false → source.Matches node.ty

/-- The link of a chain on a node in the place of its operand. -/
theorem Replaces.link {operand : Plan} {op : UnaryOp} (hnode : node.Replaces A Γ base operand.ty)
    (hfits : op.Fits A.members operand.ty ty) (hlink : op.isLink = true) (hconvert : op ≠ .convert)
    (hstands : op.standsOn node.ty = true) (hscalar : ty.isSequence = false) :
    (node.map fun plan => (Plan.unary ty op plan).retype).Replaces A Γ base ty := by
  have hchain : (Plan.unary ty op node.plan).retype.isPlainChain = true := by
    cases op with
    | member _ | reduce _ => exact hnode.good.chain
    | convert => exact absurd rfl hconvert
    | not | inSet _ | distinct => cases hlink
  have htyped : node.Types A Γ (Plan.unary ty op node.plan).retype ∧
      ty.Matches (Plan.unary ty op node.plan).retype.ty := by
    cases hsequence : operand.ty.isSequence with
    | false =>
      exact Plan.typed_retype_unary hnode.good.typed (hnode.sameType hsequence) hfits hlink hconvert
    | true =>
      cases op with
      | member name =>
        obtain ⟨element, helement⟩ := Ty.eq_list_of_isSequence hsequence
        change operand.ty.HasMember A.members name ty at hfits
        rw [helement] at hfits
        cases hfits
      | reduce reduction =>
        change ty = Plan.reducedTy operand.ty reduction at hfits
        subst hfits
        have htyped : node.Types A Γ (node.plan.reduce reduction) := .unary hnode.good.typed rfl
        exact ⟨htyped,
          Plan.reducedTy_matches hsequence (hnode.follows hsequence) hstands hscalar⟩
      | convert => exact absurd rfl hconvert
      | not | inSet _ | distinct => cases hlink
  exact {
    good := ⟨⟨hnode.good.known, htyped.1⟩, hchain⟩
    extended := ⟨hnode.extended.constants, hnode.extended.services⟩
    follows := fun h => absurd h (by simp [hscalar])
    sameType := fun _ => htyped.2 }

end Node

namespace Plan

variable {A : Assumptions} {Γ : Typing}

/-- A graft on a well-typed plan gives a good node in its place, if the scion does so for
lists. -/
theorem graft_ensures (base : Node) {method : String} {root : Ty} {scion : Plan → Compile Node}
    (hscion : ∀ list : Plan, list.ty.isSequence = true → base.Types A Γ list →
      list.isPlainChain = true →
      Halting.Ensures (scion list) fun node => node.Replaces A Γ base list.ty) :
    (plan : Plan) → base.Types A Γ plan → plan.isPlainChain = true →
      Halting.Ensures (plan.graft method root scion) fun node =>
        node.Replaces A Γ base plan.ty := by
  intro plan htyped hchain
  unfold graft
  by_cases hsequence : plan.ty.isSequence = true
  · rw [if_pos hsequence]
    exact hscion plan hsequence htyped hchain
  · rw [if_neg hsequence]
    have hscalar : plan.ty.isSequence = false := by simpa using hsequence
    -- below a plan that is no list the graft goes on at the operand that a link stands on
    match plan, htyped, hchain, hscalar with
    | unary ty op operand, htyped, hchain, hscalar =>
      cases htyped with
      | unary hoperand hfits =>
        dsimp only
        split
        · rename_i hlink
          have hconvert : op ≠ .convert := by
            rintro rfl
            cases hchain
          have hbelow : operand.isPlainChain = true := by
            cases op with
            | member _ | reduce _ => exact hchain
            | convert => cases hchain
            | not | inSet _ | distinct => cases hlink
          refine .bind (graft_ensures base hscion operand hoperand hbelow) fun node hnode => ?_
          split
          · rename_i hstands
            exact .pure (hnode.link hfits hlink hconvert hstands hscalar)
          · exact .fail _
        · exact .fail _
    | bind ty binder source name body, htyped, hchain, hscalar =>
      cases binder with
      | given => cases hchain
      | filter | project | orderBy _ => exact .fail _
    | call ty name service? run [], htyped, hchain, hscalar => exact .fail _
    | call ty name service? run (first :: rest), htyped, hchain, hscalar =>
      cases htyped with
      | call harguments hhonest hservice =>
        refine .bind (graft_ensures base hscion first (harguments first List.mem_cons_self) hchain)
          fun node hnode => .pure ?_
        have htyped : node.Types A Γ (call ty name service? run (node.plan :: rest)) := by
          refine .call ?_ hhonest fun s hs => hnode.extended.services s (hservice s hs)
          rintro argument (_ | ⟨_, hrest⟩)
          · exact hnode.good.typed
          · exact Node.Types.extend (harguments argument (List.mem_cons_of_mem _ hrest))
              hnode.extended
        exact {
          good := ⟨⟨hnode.good.known, htyped⟩, hnode.good.chain⟩
          extended := ⟨hnode.extended.constants, hnode.extended.services⟩
          follows := fun h => absurd h hsequence
          sameType := fun _ => .refl _ }
    | const _ _, _, _, _ | param _ _, _, _, _ | binary _ _ _ _, _, _, _ | cond _ _ _ _, _, _, _
    | record _ _ _, _, _, _ => exact .fail _

end Plan

end TypedQuery
