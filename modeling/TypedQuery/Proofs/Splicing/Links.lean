import TypedQuery.Plan.Eval
import TypedQuery.Plan.Graft
import TypedQuery.Proofs.Computation

/-!
# The links of a chain

A chain is a stack of links above its nearest list. A link can be built again if it stands on what
is below it and has the type that follows from there. A chain of such links stays as it is when
its list is replaced by another one of the same type, and its value is that of the links, one above
the other, on the value of the new list.
-/

namespace TypedQuery

open Halting

/-- A node of a chain without the operand through which the chain continues. -/
inductive Link
  | unary (ty : Ty) (op : UnaryOp)
  | given (ty : Ty) (name : String) (body : Plan)
  | call (ty : Ty) (name : String) (service? : Option String) (run : HostFunction)
      (rest : List Plan)

namespace Link

variable {links : List Link} {list other : Plan} {services : Services} {environment : Environment}

/-- The node with an operand. -/
def on (link : Link) (operand : Plan) : Plan :=
  match link with
  | unary ty op => .unary ty op operand
  | given ty name body => .bind ty .given operand name body
  | call ty name service? run rest => .call ty name service? run (operand :: rest)

/-- Links one above the other on a plan, the first one on top. -/
def stack (links : List Link) (plan : Plan) : Plan :=
  links.foldr on plan

/-- What a link gives on an operand that gives an outcome. -/
def eval (services : Services) (environment : Environment) (link : Link)
    (operand : Except RunFault Value) : Except RunFault Value :=
  match link with
  | unary ty op => do op.apply ty (← operand)
  | given _ name body => do
    Binder.given.apply (← operand) fun item => body.eval services ((name, item) :: environment)
  | call _ _ service? run rest => do
    let service ← services.resolve? service?
    let first ← operand
    let others ← Plan.evalAll services environment rest
    (run service (first :: others)).mapError .host

/-- What links one above the other give on an outcome. -/
def evalStack (services : Services) (environment : Environment) (links : List Link)
    (outcome : Except RunFault Value) : Except RunFault Value :=
  links.foldr (eval services environment) outcome

/-- The value of a link on an operand is that of the link on its value. -/
theorem eval_on (link : Link) (operand : Plan) :
    (link.on operand).eval services environment =
      link.eval services environment (operand.eval services environment) := by
  cases link with
  | unary ty op => simp only [on, eval, Plan.eval]
  | given ty name body => simp only [on, eval, Plan.eval]
  | call ty name service? run rest =>
    simp only [on, eval, Plan.eval, Plan.evalAll, bind_assoc, pure_bind]

/-- The value of a chain is that of its links on the value of its list. -/
theorem eval_stack (links : List Link) (list : Plan) :
    (stack links list).eval services environment =
      evalStack services environment links (list.eval services environment) := by
  induction links with
  | nil => rfl
  | cons link rest ih =>
    change (link.on (stack rest list)).eval services environment = _
    rw [eval_on, ih]
    rfl

/-- The link built again above a node, with the type that follows from there, if it can stand on
it. -/
def over? (link : Link) (node : Node) : Option Node :=
  match link with
  | unary ty op =>
    if op.standsOn node.ty then some (node.map fun plan => (Plan.unary ty op plan).retype)
    else none
  | given ty name body =>
    if node.ty.hasMembers then
      some (node.map fun plan =>
        (Plan.bind ty .given plan name (body.rebind name plan.ty.underlying)).retype)
    else none
  | call ty name service? run rest =>
    some (node.map fun plan => .call ty name service? run (plan :: rest))

/-- Links built again one above the other, the first one on top. -/
def overAll? (links : List Link) (node : Node) : Option Node :=
  links.foldr (fun link below? => below?.bind link.over?) (some node)

/-- A chain continues through the operand of the node. -/
def isLink : Link → Bool
  | unary _ op => op.isLink
  | given _ _ _ | call _ _ _ _ _ => true

/-- Below a link, the graft is made on its operand, and the link is built again above that. -/
theorem graft_on {link : Link} {operand : Plan} {method : String} {root : Ty}
    {scion : Plan → Compile Node} (hscalar : (link.on operand).ty.isSequence = false)
    (hlink : link.isLink = true) :
    (link.on operand).graft method root scion = (do
      let below ← operand.graft method root scion
      match link.over? below with
      | some node => return node
      | none => Halting.fail (.noSequence method root)) := by
  have hskip : ∀ {found skipped : Compile Node},
      (if (link.on operand).ty.isSequence then found else skipped) = skipped := fun {_ _} =>
    if_neg (hscalar ▸ Bool.false_ne_true)
  conv_lhs => unfold Plan.graft
  refine hskip.trans ?_
  cases link with
  | unary ty op =>
    refine (if_pos (show op.isLink = true from hlink)).trans ?_
    refine congrArg (operand.graft method root scion >>= ·) (funext fun below => ?_)
    dsimp only [over?]
    by_cases hstands : op.standsOn below.ty = true
    · rw [if_pos hstands, if_pos hstands]
    · rw [if_neg hstands, if_neg hstands]
  | given ty name body =>
    refine congrArg (operand.graft method root scion >>= ·) (funext fun below => ?_)
    dsimp only [over?]
    by_cases hmembers : below.ty.hasMembers = true
    · rw [if_pos hmembers, if_pos hmembers]
    · rw [if_neg hmembers, if_neg hmembers]
  | call ty name service? run rest => rfl

/-- The type of a chain with links is that of the first one, whatever its list is. -/
theorem ty_stack (h : other.ty = list.ty) : (stack links other).ty = (stack links list).ty := by
  cases links with
  | nil => exact h
  | cons link rest => cases link <;> rfl

end Link

namespace Plan

/-- The chain of a plan: the links that lead down to the nearest list, and the list. -/
inductive Chain : Plan → List Link → Plan → Prop
  | list {list : Plan} (hlist : list.ty.isSequence = true) : Chain list [] list
  | unary {ty : Ty} {op : UnaryOp} {operand list : Plan} {links : List Link}
      (hscalar : ty.isSequence = false) (hlink : op.isLink = true)
      (hoperand : Chain operand links list) :
      Chain (.unary ty op operand) (.unary ty op :: links) list
  | given {ty : Ty} {name : String} {source body list : Plan} {links : List Link}
      (hscalar : ty.isSequence = false) (hsource : Chain source links list) :
      Chain (.bind ty .given source name body) (.given ty name body :: links) list
  | call {ty : Ty} {name : String} {service? : Option String} {run : HostFunction}
      {first list : Plan} {rest : List Plan} {links : List Link}
      (hscalar : ty.isSequence = false) (hfirst : Chain first links list) :
      Chain (.call ty name service? run (first :: rest)) (.call ty name service? run rest :: links)
        list

/-- Every link of the chain of a plan stands on what is below it, and has the type that follows
from there. -/
def Rebuilds : Plan → Prop
  | unary ty op operand => op.isLink = true →
      op.standsOn operand.ty = true ∧ (op.ty? operand.ty).getD ty = ty ∧ Rebuilds operand
  | bind ty .given source name body =>
    source.ty.hasMembers = true ∧ body.rebind name source.ty.underlying = body ∧
      ty = body.ty.orNull ∧ Rebuilds source
  | call _ _ _ _ (first :: _) => Rebuilds first
  | _ => True

variable {plan list : Plan} {links : List Link} {method : String} {root : Ty}
  {scion : Plan → Compile Node} {session final : Session} {result : Node}

/-- A chain is made of its links and its list. -/
theorem Chain.stack_eq (h : plan.Chain links list) : Link.stack links list = plan := by
  induction h with
  | list _ => rfl
  | unary _ _ _ ih => exact congrArg (Plan.unary _ _) ih
  | given _ _ ih => exact congrArg (Plan.bind _ _ · _ _) ih
  | call _ _ ih => exact congrArg (fun first => Plan.call _ _ _ _ (first :: _)) ih

/-- A chain stands on a list. -/
theorem Chain.isSequence (h : plan.Chain links list) : list.ty.isSequence = true := by
  induction h with
  | list hlist => exact hlist
  | unary _ _ _ ih => exact ih
  | given _ _ ih => exact ih
  | call _ _ ih => exact ih

/-- A chain continues through each of its links. -/
theorem Chain.isLink (h : plan.Chain links list) : ∀ link ∈ links, link.isLink = true := by
  induction h with
  | list _ => exact fun link hlink => absurd hlink List.not_mem_nil
  | unary _ hlink _ ih => exact List.forall_mem_cons.mpr ⟨hlink, ih⟩
  | given _ _ ih => exact List.forall_mem_cons.mpr ⟨rfl, ih⟩
  | call _ _ ih => exact List.forall_mem_cons.mpr ⟨rfl, ih⟩

/-- A chain without links is the list. -/
theorem Chain.of_nil (h : plan.Chain [] list) : plan = list := by
  cases h with
  | list _ => rfl

/-- Below the first link of a chain there is the chain of the others. -/
theorem Chain.exists_on {link : Link} (h : plan.Chain (link :: links) list) :
    ∃ operand, plan = link.on operand ∧ plan.ty.isSequence = false ∧ link.isLink = true ∧
      operand.Chain links list := by
  cases h with
  | unary hscalar hlink hoperand => exact ⟨_, rfl, hscalar, hlink, hoperand⟩
  | given hscalar hsource => exact ⟨_, rfl, hscalar, rfl, hsource⟩
  | call hscalar hfirst => exact ⟨_, rfl, hscalar, rfl, hfirst⟩

/-- Another list of the same type takes the place of the list of a chain. -/
theorem Chain.replace {other : Plan} (h : plan.Chain links list) (hty : other.ty = list.ty) :
    (Link.stack links other).Chain links other := by
  induction h with
  | list hlist => exact .list (hty ▸ hlist)
  | unary hscalar hlink _ ih => exact .unary hscalar hlink (ih hty)
  | given hscalar _ ih => exact .given hscalar (ih hty)
  | call hscalar _ ih => exact .call hscalar (ih hty)

/-- On a list, a graft is what is made of the list. -/
theorem graft_of_isSequence (h : list.ty.isSequence = true) :
    list.graft method root scion = scion list := by
  unfold graft
  exact if_pos h

/-- A graft is made on the list of a chain, and the links are built again above it. -/
theorem Chain.graft_eq_ok (h : plan.Chain links list) :
    plan.graft method root scion session = .ok result final ↔
      ∃ node, scion list session = .ok node final ∧ Link.overAll? links node = some result := by
  induction links generalizing plan result final with
  | nil =>
    rw [h.of_nil, graft_of_isSequence h.isSequence]
    constructor
    · exact fun h => ⟨result, h, rfl⟩
    · rintro ⟨_, h, ⟨⟩⟩
      exact h
  | cons link rest ih =>
    obtain ⟨operand, rfl, hscalar, hlink, hoperand⟩ := h.exists_on
    rw [Link.graft_on hscalar hlink, bind_eq_ok]
    constructor
    · rintro ⟨below, between, hbelow, h⟩
      obtain ⟨node, hnode, hrest⟩ := (ih hoperand).mp hbelow
      cases hover : link.over? below with
      | none =>
        rw [hover] at h
        cases h
      | some found =>
        rw [hover] at h
        obtain ⟨rfl, rfl⟩ := pure_eq_ok.mp h
        exact ⟨node, hnode, (congrArg (Option.bind · link.over?) hrest).trans hover⟩
    · rintro ⟨node, hnode, hall⟩
      obtain ⟨below, hrest, hover⟩ := Option.bind_eq_some_iff.mp hall
      refine ⟨below, final, (ih hoperand).mpr ⟨node, hnode, hrest⟩, ?_⟩
      rw [hover]
      rfl

/-- A plan without a chain has no list, and a graft on it is refused. -/
theorem exists_chain_or_refused : (plan : Plan) → (∃ links list, plan.Chain links list) ∨
    ∀ method root scion, plan.graft method root scion =
      (Halting.fail (.noSequence method root) : Compile Node) := by
  intro plan
  by_cases hsequence : plan.ty.isSequence = true
  · exact .inl ⟨[], plan, .list hsequence⟩
  · have hscalar : plan.ty.isSequence = false := Bool.eq_false_iff.mpr hsequence
    have hskip : ∀ {found skipped : Compile Node},
        (if plan.ty.isSequence then found else skipped) = skipped := fun {_ _} => if_neg hsequence
    -- A link is refused with its operand.
    have hon : ∀ (link : Link) (operand : Plan), (link.on operand).ty.isSequence = false →
        link.isLink = true → (∀ method root scion, operand.graft method root scion =
          (Halting.fail (.noSequence method root) : Compile Node)) →
        ∀ method root scion, (link.on operand).graft method root scion =
          (Halting.fail (.noSequence method root) : Compile Node) := by
      intro link operand hscalar hlink hrefused method root scion
      rw [Link.graft_on hscalar hlink, hrefused]
      rfl
    cases plan with
    | unary ty op operand =>
      by_cases hlink : op.isLink = true
      · refine (exists_chain_or_refused operand).imp ?_ (hon (.unary ty op) operand hscalar hlink)
        rintro ⟨links, list, hoperand⟩
        exact ⟨_, list, .unary hscalar hlink hoperand⟩
      · refine .inr fun method root scion => ?_
        unfold graft
        exact hskip.trans (if_neg hlink)
    | bind ty binder source name body =>
      cases binder with
      | given =>
        refine (exists_chain_or_refused source).imp ?_
          (hon (.given ty name body) source hscalar rfl)
        rintro ⟨links, list, hsource⟩
        exact ⟨_, list, .given hscalar hsource⟩
      | filter | project | orderBy _ =>
        refine .inr fun method root scion => ?_
        unfold graft
        exact hskip
    | call ty name service? run arguments =>
      cases arguments with
      | nil =>
        refine .inr fun method root scion => ?_
        unfold graft
        exact hskip
      | cons first rest =>
        refine (exists_chain_or_refused first).imp ?_
          (hon (.call ty name service? run rest) first hscalar rfl)
        rintro ⟨links, list, hfirst⟩
        exact ⟨_, list, .call hscalar hfirst⟩
    | const _ _ | param _ _ | binary _ _ _ _ | cond _ _ _ _ | record _ _ _ =>
      refine .inr fun method root scion => ?_
      unfold graft
      exact hskip

/-- Where a graft succeeds, the plan has a chain. -/
theorem exists_chain_of_graft (plan : Plan)
    (h : plan.graft method root scion session = .ok result final) :
    ∃ links list, plan.Chain links list := by
  refine (exists_chain_or_refused plan).resolve_right fun hrefused => ?_
  rw [hrefused] at h
  cases h

/-- Above a plan of the same type, links that can be built again are as they were. -/
theorem overAll?_of_rebuilds {base : Plan} (hlinks : ∀ link ∈ links, link.isLink = true)
    (hrebuilds : (Link.stack links base).Rebuilds) (hty : result.ty = base.ty) :
    Link.overAll? links result = some (result.map (Link.stack links)) := by
  -- What is built below a link has the type of its old operand, so the link is built again as it
  -- was: it stands there as before, and the type that follows is its own.
  induction links with
  | nil => rfl
  | cons link rest ih =>
    obtain ⟨hlink, hrest⟩ := List.forall_mem_cons.mp hlinks
    have hbelow : (result.map (Link.stack rest)).ty = (Link.stack rest base).ty :=
      Link.ty_stack hty
    cases link with
    | unary ty op =>
      obtain ⟨hstands, hretype, hoperand⟩ := hrebuilds hlink
      have hkept : (Plan.unary ty op (Link.stack rest result.plan)).retype =
          Plan.unary ty op (Link.stack rest result.plan) := by
        change Plan.unary ((op.ty? (result.map (Link.stack rest)).ty).getD ty) op _ = _
        rw [hbelow]
        exact congrArg (Plan.unary · op _) hretype
      refine (congrArg (Option.bind · (Link.unary ty op).over?) (ih hrest hoperand)).trans ?_
      refine (if_pos (hbelow ▸ hstands)).trans ?_
      exact congrArg (fun plan => some { result with plan }) hkept
    | given ty name body =>
      obtain ⟨hmembers, hbody, hretype, hsource⟩ := hrebuilds
      have hkept : (bind ty .given (Link.stack rest result.plan) name
          (body.rebind name (Link.stack rest result.plan).ty.underlying)).retype =
            bind ty .given (Link.stack rest result.plan) name body := by
        change (Link.stack rest result.plan).ty = (Link.stack rest base).ty at hbelow
        rw [hbelow]
        have hbody' : body.rebind name (Link.stack rest base).ty.underlying = body := hbody
        rw [hbody', hretype]
        rfl
      refine (congrArg (Option.bind · (Link.given ty name body).over?) (ih hrest hsource)).trans ?_
      refine (if_pos (hbelow ▸ hmembers)).trans ?_
      exact congrArg (fun plan => some { result with plan }) hkept
    | call ty name service? run others =>
      exact congrArg (Option.bind · (Link.call ty name service? run others).over?)
        (ih hrest hrebuilds)

/-- Above a list of the same type, the links of a chain that can be built again are as they were. -/
theorem Chain.overAll?_eq (h : plan.Chain links list) (hrebuilds : plan.Rebuilds)
    (hty : result.ty = list.ty) :
    Link.overAll? links result = some (result.map (Link.stack links)) :=
  overAll?_of_rebuilds h.isLink (h.stack_eq ▸ hrebuilds) hty

/-- A graft that gives a list of the same type leaves the links of a chain as they are. -/
theorem Chain.graft_eq (h : plan.Chain links list) (hrebuilds : plan.Rebuilds)
    (hscion : scion list session = .ok result final) (hty : result.ty = list.ty) :
    plan.graft method root scion session = .ok (result.map (Link.stack links)) final :=
  h.graft_eq_ok.mpr ⟨result, hscion, h.overAll?_eq hrebuilds hty⟩

/-- Types that follow from operands follow again. -/
theorem retype_retype (plan : Plan) : plan.retype.retype = plan.retype := by
  have hkept : ∀ (found? : Option Ty) (ty : Ty), found?.getD (found?.getD ty) = found?.getD ty := by
    intro found? ty
    cases found? with
    | none => rfl
    | some found => rfl
  cases plan with
  | unary ty op operand => exact congrArg (unary · op operand) (hkept _ ty)
  | binary ty op left right => exact congrArg (binary · op left right) (hkept _ ty)
  | const _ _ | param _ _ | cond _ _ _ _ | bind _ _ _ _ _ | record _ _ _ | call _ _ _ _ _ => rfl

mutual

/-- A parameter that has a type already keeps it. -/
theorem rebind_rebind (name : String) (ty : Ty) :
    (plan : Plan) → (plan.rebind name ty).rebind name ty = plan.rebind name ty
  | const _ _ => rfl
  | param paramTy other => by
    change param (if other = name then ty else if other = name then ty else paramTy) other =
      param (if other = name then ty else paramTy) other
    split
    · rfl
    · rfl
  | unary nodeTy op operand => by
    change (unary _ op ((operand.rebind name ty).rebind name ty)).retype = _
    rw [rebind_rebind name ty operand]
    exact retype_retype (unary nodeTy op _)
  | binary nodeTy op left right => by
    change (binary _ op ((left.rebind name ty).rebind name ty)
      ((right.rebind name ty).rebind name ty)).retype = _
    rw [rebind_rebind name ty left, rebind_rebind name ty right]
    exact retype_retype (binary nodeTy op _ _)
  | cond nodeTy test yes no => by
    change cond nodeTy ((test.rebind name ty).rebind name ty) ((yes.rebind name ty).rebind name ty)
      ((no.rebind name ty).rebind name ty) = _
    rw [rebind_rebind name ty test, rebind_rebind name ty yes, rebind_rebind name ty no]
    rfl
  | bind nodeTy binder source other body => by
    change (bind _ binder ((source.rebind name ty).rebind name ty) other
      ((body.rebind name ty).rebind name ty)).retype = _
    rw [rebind_rebind name ty source, rebind_rebind name ty body]
    exact retype_retype (bind nodeTy binder _ other _)
  | record nodeTy fields values => by
    change record nodeTy fields (rebindAll name ty (rebindAll name ty values)) = _
    rw [rebindAll_rebindAll name ty values]
    rfl
  | call nodeTy callName service? run arguments => by
    change call nodeTy callName service? run (rebindAll name ty (rebindAll name ty arguments)) = _
    rw [rebindAll_rebindAll name ty arguments]
    rfl

/-- Binding a parameter anew twice is binding it anew once. -/
theorem rebindAll_rebindAll (name : String) (ty : Ty) :
    (plans : List Plan) → rebindAll name ty (rebindAll name ty plans) = rebindAll name ty plans
  | [] => rfl
  | plan :: rest => by
    change (plan.rebind name ty).rebind name ty :: rebindAll name ty (rebindAll name ty rest) = _
    rw [rebind_rebind name ty plan, rebindAll_rebindAll name ty rest]
    rfl

end

/-- Whatever is grafted, the links of the chain can be built again if those of the graft can. -/
theorem graft_rebuilds (hscion : ∀ list : Plan, list.ty.isSequence = true → list.Rebuilds →
      Ensures (scion list) fun node => node.plan.Rebuilds) :
    (plan : Plan) → plan.Rebuilds →
      Ensures (plan.graft method root scion) fun node => node.plan.Rebuilds := by
  intro plan hplan
  unfold graft
  by_cases hsequence : plan.ty.isSequence = true
  · rw [if_pos hsequence]
    exact hscion plan hsequence hplan
  · rw [if_neg hsequence]
    match plan, hplan with
    | unary ty op operand, hplan =>
      dsimp only
      split
      · rename_i hlink
        obtain ⟨_, _, hoperand⟩ := hplan hlink
        refine .bind (graft_rebuilds hscion operand hoperand) fun node hnode => ?_
        split
        · rename_i hstands
          have hkept := retype_retype (unary ty op node.plan)
          injection hkept with hty
          exact .pure fun _ => ⟨hstands, hty, hnode⟩
        · exact .fail _
      · exact .fail _
    | bind ty .given source name body, hplan =>
      refine .bind (graft_rebuilds hscion source hplan.2.2.2) fun node hnode => ?_
      split
      · rename_i hmembers
        exact .pure ⟨hmembers, rebind_rebind name _ body, rfl, hnode⟩
      · exact .fail _
    | call ty name service? run (first :: rest), hplan =>
      exact .bind (graft_rebuilds hscion first hplan) fun node hnode => .pure hnode
    | call _ _ _ _ [], _ => exact .fail _
    | bind _ .filter _ _ _, _ | bind _ .project _ _ _, _ | bind _ (.orderBy _) _ _ _, _
    | const _ _, _ | param _ _, _ | binary _ _ _ _, _ | cond _ _ _ _, _ | record _ _ _, _ =>
      exact .fail _

end Plan

end TypedQuery
