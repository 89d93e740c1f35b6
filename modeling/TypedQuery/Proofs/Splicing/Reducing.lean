import TypedQuery.Proofs.Plan.Typing
import TypedQuery.Proofs.Splicing.Links

/-!
# Chains above a number

What a method makes of the list of a chain takes the place of the list, and the links are built
again above it. A number has neither members nor items, so the link above the list refuses it.
Only a call does not look at what its first argument has become: it takes the number in the place
of the list, and the links above the call stay as they are.
-/

namespace TypedQuery

open Halting

namespace Link

variable {links : List Link} {link : Link} {node : Node}

/-- The link is a call of a function of the host. -/
def isCall : Link → Bool
  | call _ _ _ _ _ => true
  | unary _ _ | given _ _ _ => false

/-- Of links one above the other, the lowest one is built first. -/
theorem overAll?_concat (links : List Link) (link : Link) (node : Node) :
    overAll? (links ++ [link]) node = (link.over? node).bind (overAll? links) := by
  unfold overAll?
  rw [List.foldr_append]
  change links.foldr _ (link.over? node) = _
  cases link.over? node with
  | some below => rfl
  | none =>
    induction links with
    | nil => rfl
    | cons first rest ih => exact congrArg (Option.bind · first.over?) ih

/-- The type of a chain with links does not depend on what they stand on. -/
theorem ty_stack_concat (links : List Link) (link : Link) (plan other : Plan) :
    (stack (links ++ [link]) plan).ty = (stack (links ++ [link]) other).ty := by
  cases links with
  | nil => cases link <;> rfl
  | cons first rest => cases first <;> rfl

/-- Without a conversion, nothing but a call is built above a value that has neither members nor
items. -/
theorem over?_of_bare (hmembers : node.ty.hasMembers = false)
    (hitems : node.ty.isReducible = false) (hlink : link.isLink = true)
    (hconvert : ∀ ty, link ≠ .unary ty .convert) :
    link.over? node = if link.isCall then some (node.map link.on) else none := by
  cases link with
  | unary ty op =>
    have hstands : op.standsOn node.ty = false := by
      cases op with
      | member _ => exact hmembers
      | reduce _ => exact hitems
      | convert => exact absurd rfl (hconvert ty)
      | not | inSet _ | distinct => cases hlink
    exact if_neg (Bool.eq_false_iff.mp hstands)
  | given ty name body => exact if_neg (Bool.eq_false_iff.mp hmembers)
  | call ty name service? run rest => rfl

end Link

namespace Plan

variable {plan list : Plan} {links : List Link} {link : Link} {method : String} {root : Ty}
  {scion : Plan → Compile Node} {session final : Session} {node : Node}

/-- There is no conversion in a plain chain. -/
theorem Chain.ne_convert (h : plan.Chain links list) (hplain : plan.isPlainChain = true) :
    ∀ link ∈ links, ∀ ty, link ≠ .unary ty .convert := by
  induction h with
  | list _ => exact fun link hlink => absurd hlink List.not_mem_nil
  | @unary ty op _ _ _ _ hlink _ ih =>
    cases op with
    | member _ | reduce _ =>
      exact List.forall_mem_cons.mpr ⟨fun _ => by simp, ih hplain⟩
    | convert => cases hplain
    | not | inSet _ | distinct => cases hlink
  | given _ _ _ => cases hplain
  | call _ _ ih => exact List.forall_mem_cons.mpr ⟨fun _ => by simp, ih hplain⟩

/-- The nearest list of the chain of a plan is the first argument of a call. -/
def PassesList (plan : Plan) : Prop :=
  ∃ links link list, plan.Chain (links ++ [link]) list ∧ link.isCall = true

/-- A number in the place of the list is refused by the link above it, unless that is a call. -/
theorem Chain.overAll?_of_bare (h : plan.Chain (links ++ [link]) list)
    (hplain : plan.isPlainChain = true) (hrebuilds : plan.Rebuilds)
    (hmembers : node.ty.hasMembers = false) (hitems : node.ty.isReducible = false) :
    Link.overAll? (links ++ [link]) node =
      if link.isCall then some (node.map (Link.stack (links ++ [link]))) else none := by
  have hmem : link ∈ links ++ [link] := List.mem_append_right _ (List.mem_singleton.mpr rfl)
  rw [Link.overAll?_concat, Link.over?_of_bare hmembers hitems (h.isLink link hmem)
    (h.ne_convert hplain link hmem)]
  cases hcall : link.isCall with
  | false => rfl
  | true =>
    have hstack : ∀ base, Link.stack (links ++ [link]) base = Link.stack links (link.on base) :=
      fun base => List.foldr_append ..
    -- The call has its type whatever it is applied to, so the links above it are built again.
    have hty : (node.map link.on).ty = (link.on list).ty := by
      cases link with
      | call ty name service? run rest => rfl
      | unary _ _ | given _ _ _ => cases hcall
    have habove : Link.overAll? links (node.map link.on) =
        some ((node.map link.on).map (Link.stack links)) := by
      refine overAll?_of_rebuilds (fun other hother => ?_) ?_ hty
      · exact h.isLink other (List.mem_append_left _ hother)
      · rw [← hstack, h.stack_eq]
        exact hrebuilds
    refine habove.trans (congrArg some ?_)
    exact congrArg (fun plan => ({ node with plan } : Node)) (hstack node.plan).symm

/-- A graft on a chain fails because a link does not take what is made of the list, or because
nothing could be made of it. -/
theorem Chain.graft_eq_error {halt : Halt CompileFault} {final : Session}
    (h : plan.Chain links list)
    (hfails : plan.graft method root scion session = .error halt final) :
    halt = .fault (.noSequence method root) ∨ scion list session = .error halt final := by
  induction links generalizing plan halt final with
  | nil =>
    rw [h.of_nil, graft_of_isSequence h.isSequence] at hfails
    exact .inr hfails
  | cons link rest ih =>
    obtain ⟨operand, rfl, hscalar, hlink, hoperand⟩ := h.exists_on
    rw [Link.graft_on hscalar hlink] at hfails
    rcases bind_eq_error.mp hfails with hbelow | ⟨below, between, -, hend⟩
    · exact ih hoperand hbelow
    · cases hover : link.over? below with
      | some node =>
        rw [hover] at hend
        cases hend
      | none =>
        rw [hover] at hend
        cases hend
        exact .inl rfl

/-- A graft fails because the chain has no list or does not take what is made of it, or because
nothing could be made of the list. -/
theorem graft_eq_error (plan : Plan) {halt : Halt CompileFault} {final : Session}
    (h : plan.graft method root scion session = .error halt final) :
    halt = .fault (.noSequence method root) ∨
      ∃ links list, plan.Chain links list ∧ scion list session = .error halt final := by
  rcases exists_chain_or_refused plan with ⟨links, list, hchain⟩ | hrefused
  · refine (hchain.graft_eq_error h).imp_right fun hscion => ⟨links, list, hchain, hscion⟩
  · rw [hrefused] at h
    cases h
    exact .inl rfl

end Plan

end TypedQuery
