import TypedQuery.Plan.Eval
import TypedQuery.Proofs.Plan.Typing

/-!
# Free parameters and needed services

A plan can only miss what it refers to. With a value for every free parameter and with every
service that its calls need, no run of it ends because a parameter is unbound or a service is
missing.
-/

namespace TypedQuery

namespace Plan

mutual

/-- The parameters to which a plan refers outside of their binders. -/
def free : Plan → List String
  | const _ _ => []
  | param _ name => [name]
  | unary _ _ operand => free operand
  | binary _ _ left right => free left ++ free right
  | cond _ test yes no => free test ++ (free yes ++ free no)
  | bind _ _ source name body => free source ++ (free body).filter (· ≠ name)
  | record _ _ values => freeAll values
  | call _ _ _ _ arguments => freeAll arguments

/-- The same for a list of plans. -/
def freeAll : List Plan → List String
  | [] => []
  | plan :: rest => free plan ++ freeAll rest

end

mutual

/-- The services that the calls of a plan need. -/
def needed : Plan → List String
  | const _ _ | param _ _ => []
  | unary _ _ operand => needed operand
  | binary _ _ left right => needed left ++ needed right
  | cond _ test yes no => needed test ++ (needed yes ++ needed no)
  | bind _ _ source _ body => needed source ++ needed body
  | record _ _ values => neededAll values
  | call _ _ service? _ arguments => service?.toList ++ neededAll arguments

/-- The same for a list of plans. -/
def neededAll : List Plan → List String
  | [] => []
  | plan :: rest => needed plan ++ neededAll rest

end

variable {A : Assumptions} {services : List String} {Γ : Typing} {plan : Plan}

/-- The free parameters of several plans are those of each. -/
theorem mem_freeAll {plans : List Plan} {name : String} :
    name ∈ freeAll plans ↔ ∃ plan ∈ plans, name ∈ plan.free := by
  induction plans with
  | nil => simp [freeAll]
  | cons plan rest ih => simp [freeAll, ih]

/-- The services that several plans need are those that each needs. -/
theorem mem_neededAll {plans : List Plan} {service : String} :
    service ∈ neededAll plans ↔ ∃ plan ∈ plans, service ∈ plan.needed := by
  induction plans with
  | nil => simp [neededAll]
  | cons plan rest ih => simp [neededAll, ih]

/-- The free parameters of a well-typed plan are those that its context allows. -/
theorem Typed.exists_of_mem_free (h : Typed A services Γ plan) :
    ∀ name ∈ plan.free, ∃ ty, Γ name ty := by
  induction h with
  | const _ _ => exact fun name hname => absurd hname List.not_mem_nil
  | param hparam =>
    intro name hname
    rw [List.mem_singleton.mp hname]
    exact ⟨_, hparam⟩
  | unary _ _ ih => exact ih
  | binary _ _ _ ihl ihr =>
    intro name hname
    exact (List.mem_append.mp hname).elim (ihl name) (ihr name)
  | cond _ _ _ _ iht ihy ihn =>
    intro name hname
    rcases List.mem_append.mp hname with h | h
    · exact iht name h
    · exact (List.mem_append.mp h).elim (ihy name) (ihn name)
  | bind _ _ _ ihs ihb =>
    intro name hname
    rcases List.mem_append.mp hname with h | h
    · exact ihs name h
    · obtain ⟨hbody, hne⟩ := List.mem_filter.mp h
      obtain ⟨ty, hty⟩ := ihb name hbody
      exact ⟨ty, (Typing.bind_of_ne (by simpa using hne)).mp hty⟩
  | record _ _ ih =>
    intro name hname
    obtain ⟨value, hvalue, hname⟩ := mem_freeAll.mp hname
    exact ih value hvalue name hname
  | call _ _ _ ih =>
    intro name hname
    obtain ⟨argument, hargument, hname⟩ := mem_freeAll.mp hname
    exact ih argument hargument name hname

/-- The calls of a well-typed plan need listed services only. -/
theorem Typed.mem_of_mem_needed (h : Typed A services Γ plan) :
    ∀ service ∈ plan.needed, service ∈ services := by
  induction h with
  | const _ _ | param _ => exact fun service hservice => absurd hservice List.not_mem_nil
  | unary _ _ ih => exact ih
  | binary _ _ _ ihl ihr =>
    intro service hservice
    exact (List.mem_append.mp hservice).elim (ihl service) (ihr service)
  | cond _ _ _ _ iht ihy ihn =>
    intro service hservice
    rcases List.mem_append.mp hservice with h | h
    · exact iht service h
    · exact (List.mem_append.mp h).elim (ihy service) (ihn service)
  | bind _ _ _ ihs ihb =>
    intro service hservice
    exact (List.mem_append.mp hservice).elim (ihs service) (ihb service)
  | record _ _ ih =>
    intro service hservice
    obtain ⟨value, hvalue, hservice⟩ := mem_neededAll.mp hservice
    exact ih value hvalue service hservice
  | call _ _ hlisted ih =>
    intro service hservice
    rcases List.mem_append.mp hservice with h | h
    · exact hlisted service (Option.mem_toList.mp h)
    · obtain ⟨argument, hargument, hservice⟩ := mem_neededAll.mp h
      exact ih argument hargument service hservice

end Plan

end TypedQuery
