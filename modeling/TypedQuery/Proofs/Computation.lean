import Mathlib.Data.List.Forall2
import TypedQuery.Compile.Session

/-!
# What a computation ensures

Partial correctness of computations that may stop: every result that a computation
gives, from whatever state it starts, has a property. Nothing is said of runs that
stop without a result. Two computations are parallel if they stop for the same reason or
give related results.
-/

namespace TypedQuery.Halting

variable {σ ε ε' α β : Type}

/-- Every result of a computation has a property. -/
def Ensures (run : Halting σ ε α) (post : α → Prop) : Prop :=
  ∀ state result state', run state = .ok result state' → post result

/-- In a state, the computation gives a result that passes a test. -/
def yields (run : Halting σ ε α) (state : σ) (test : α → Bool) : Bool :=
  match run state with
  | .ok result _ => test result
  | .error _ _ => false

/-- A computation that yields a result has one that passes the test. -/
theorem exists_of_yields {run : Halting σ ε α} {state : σ} {test : α → Bool}
    (h : run.yields state test = true) :
    ∃ result state', run state = .ok result state' ∧ test result = true := by
  unfold yields at h
  split at h
  · exact ⟨_, _, ‹_›, h⟩
  · cases h

/-- A computation goes on from the result of its first part. -/
theorem bind_of_ok {run : Halting σ ε α} {next : α → Halting σ ε β} {state state' : σ} {result : α}
    (h : run state = .ok result state') : (run >>= next) state = next result state' := by
  change EStateM.bind run next state = next result state'
  unfold EStateM.bind
  rw [h]

/-- A computation that stops keeps the next one from running. -/
theorem bind_of_error {run : Halting σ ε α} {next : α → Halting σ ε β} {state state' : σ}
    {halt : Halt ε} (h : run state = .error halt state') :
    (run >>= next) state = .error halt state' := by
  change EStateM.bind run next state = .error halt state'
  unfold EStateM.bind
  rw [h]

/-- A computation in two parts gives a result if both parts do. -/
theorem bind_eq_ok {run : Halting σ ε α} {next : α → Halting σ ε β} {state final : σ}
    {result : β} :
    (run >>= next) state = .ok result final ↔
      ∃ first between, run state = .ok first between ∧ next first between = .ok result final := by
  constructor
  · intro h
    cases hrun : run state with
    | ok first between =>
      rw [bind_of_ok hrun] at h
      exact ⟨first, between, rfl, h⟩
    | error halt between =>
      rw [bind_of_error hrun] at h
      cases h
  · rintro ⟨first, between, hrun, hnext⟩
    rw [bind_of_ok hrun, hnext]

/-- A computation in two parts stops if its first part does, or its second part after it. -/
theorem bind_eq_error {run : Halting σ ε α} {next : α → Halting σ ε β} {state final : σ}
    {halt : Halt ε} :
    (run >>= next) state = .error halt final ↔
      run state = .error halt final ∨
        ∃ first between, run state = .ok first between ∧
          next first between = .error halt final := by
  constructor
  · intro h
    cases hrun : run state with
    | ok first between =>
      rw [bind_of_ok hrun] at h
      exact .inr ⟨first, between, rfl, h⟩
    | error cause between =>
      rw [bind_of_error hrun] at h
      cases h
      exact .inl rfl
  · rintro (hrun | ⟨first, between, hrun, hnext⟩)
    · exact bind_of_error hrun
    · rw [bind_of_ok hrun, hnext]

/-- There is a result behind a check just if the check passes and what follows has that result. -/
theorem check_eq_ok {outcome : Except ε α} {next : α → Halting σ ε β} {state final : σ}
    {result : β} :
    (ofExcept outcome >>= next) state = .ok result final ↔
      ∃ first, outcome = .ok first ∧ next first state = .ok result final := by
  rw [bind_eq_ok]
  cases outcome with
  | error cause => exact ⟨nofun, nofun⟩
  | ok found =>
    constructor
    · rintro ⟨first, between, hcheck, hnext⟩
      cases hcheck
      exact ⟨found, rfl, hnext⟩
    · rintro ⟨first, hcheck, hnext⟩
      cases hcheck
      exact ⟨found, state, rfl, hnext⟩

/-- A check that passes changes nothing. -/
theorem check_of_ok {outcome : Except ε' α} {f : ε' → ε} {next : α → Halting σ ε β} {state : σ}
    {result : α} (h : outcome = .ok result) :
    (ofExcept (outcome.mapError f) >>= next) state = next result state := by
  rw [h]
  rfl

/-- A finished computation has its result and leaves the state. -/
theorem pure_eq_ok {outcome result : α} {state final : σ} :
    (Pure.pure outcome : Halting σ ε α) state = .ok result final ↔
      result = outcome ∧ final = state :=
  ⟨fun h => by cases h; exact ⟨rfl, rfl⟩, fun ⟨hresult, hfinal⟩ => hresult ▸ hfinal ▸ rfl⟩

/-- Other words for the failures do not change the results. -/
theorem mapFault_eq_ok {run : Halting σ ε α} {f : ε → ε'} {state final : σ} {result : α} :
    run.mapFault f state = .ok result final ↔ run state = .ok result final := by
  unfold mapFault
  split
  · simp [*]
  · simp [*]
  · simp [*]

/-- A failure is described, and the state is the one that it leaves. -/
theorem mapFault_of_fault {run : Halting σ ε α} {f : ε → ε'} {state final : σ} {cause : ε}
    (h : run state = .error (.fault cause) final) :
    run.mapFault f state = .error (.fault (f cause)) final := by
  unfold mapFault
  rw [h]

/-- A computation that goes too deep has no failure to describe. -/
theorem mapFault_of_depth {run : Halting σ ε α} {f : ε → ε'} {state final : σ}
    (h : run state = .error .depth final) : run.mapFault f state = .error .depth final := by
  unfold mapFault
  rw [h]

/-- Failures of both parts of a computation are described. -/
theorem mapFault_bind (run : Halting σ ε α) (next : α → Halting σ ε β) (f : ε → ε') :
    (run >>= next).mapFault f = run.mapFault f >>= fun result => (next result).mapFault f := by
  funext state
  cases hrun : run state with
  | ok result between =>
    rw [bind_of_ok (mapFault_eq_ok.mpr hrun)]
    unfold mapFault
    rw [bind_of_ok hrun]
  | error halt between =>
    have hboth : (run >>= next) state = .error halt between := bind_of_error hrun
    cases halt with
    | fault cause => rw [bind_of_error (mapFault_of_fault hrun), mapFault_of_fault hboth]
    | depth => rw [bind_of_error (mapFault_of_depth hrun), mapFault_of_depth hboth]

/-- A description of what is described already. -/
theorem mapFault_mapFault {ε'' : Type} (run : Halting σ ε α) (f : ε → ε') (g : ε' → ε'') :
    (run.mapFault f).mapFault g = run.mapFault (g ∘ f) := by
  funext state
  unfold mapFault
  cases run state with
  | ok result final => rfl
  | error halt final => cases halt <;> rfl

/-- An attempt succeeds where the computation does. -/
theorem attempt_eq_ok {run : Halting σ ε α} {state final : σ} {result : α} :
    (run.attempt : Halting σ ε' (Except ε α)) state = .ok (.ok result) final ↔
      run state = .ok result final := by
  unfold attempt
  split
  · simp [*]
  · simp [*]
  · simp [*]

/-- An attempt hands on the cause of a failure as its result. -/
theorem attempt_of_fault {run : Halting σ ε α} {state final : σ} {cause : ε}
    (h : run state = .error (.fault cause) final) :
    (run.attempt : Halting σ ε' (Except ε α)) state = .ok (.error cause) final := by
  unfold attempt
  rw [h]

/-- An attempt does not hold up a computation that runs too deep. -/
theorem attempt_of_depth {run : Halting σ ε α} {state final : σ}
    (h : run state = .error .depth final) :
    (run.attempt : Halting σ ε' (Except ε α)) state = .error .depth final := by
  unfold attempt
  rw [h]

namespace Ensures

/-- A finished computation has the property of its result. -/
theorem pure {post : α → Prop} {result : α} (h : post result) :
    Ensures (Pure.pure result : Halting σ ε α) post := by
  intro state result' state' hrun
  cases hrun
  exact h

/-- The property of a result carries over to what the next computation makes of it. -/
theorem bind {first : Halting σ ε α} {next : α → Halting σ ε β} {p : α → Prop}
    {post : β → Prop} (hfirst : Ensures first p)
    (hnext : ∀ result, p result → Ensures (next result) post) :
    Ensures (first >>= next) post := by
  intro state result state' hrun
  change EStateM.bind first next state = .ok result state' at hrun
  unfold EStateM.bind at hrun
  cases h : first state with
  | ok between state₁ =>
    rw [h] at hrun
    exact hnext between (hfirst state between state₁ h) state₁ result state' hrun
  | error halt state₁ =>
    rw [h] at hrun
    cases hrun

/-- What holds of everything holds of the results of a computation. -/
theorem of_forall {post : α → Prop} (run : Halting σ ε α) (h : ∀ result, post result) :
    Ensures run post :=
  fun _ result _ _ => h result

/-- A property of all results gives every weaker one. -/
theorem mono {run : Halting σ ε α} {weak strong : α → Prop} (h : Ensures run strong)
    (himp : ∀ result, strong result → weak result) : Ensures run weak :=
  fun state result state' hrun => himp result (h state result state' hrun)

/-- Two properties of all results hold together. -/
theorem and {run : Halting σ ε α} {p q : α → Prop} (hp : Ensures run p) (hq : Ensures run q) :
    Ensures run fun result => p result ∧ q result :=
  fun state result state' hrun => ⟨hp state result state' hrun, hq state result state' hrun⟩

/-- Nothing is asked of a computation that fails. -/
theorem fail {post : α → Prop} (cause : ε) : Ensures (Halting.fail cause : Halting σ ε α) post := by
  intro state result state' hrun
  cases hrun

/-- A computation that runs too deep has no results. -/
theorem tooDeep {post : α → Prop} : Ensures (Halting.tooDeep : Halting σ ε α) post := by
  intro state result state' hrun
  cases hrun

/-- A check ensures what every outcome that passes it has. -/
theorem ofExcept {post : α → Prop} {check : Except ε α}
    (h : ∀ result, check = .ok result → post result) :
    Ensures (Halting.ofExcept check : Halting σ ε α) post := by
  cases check with
  | error cause => exact fail cause
  | ok result => exact pure (h result rfl)

/-- A check only has to pass. -/
theorem check {post : β → Prop} {outcome : Except ε α} {next : α → Halting σ ε β}
    (h : ∀ result, outcome = .ok result → Ensures (next result) post) :
    Ensures (Halting.ofExcept outcome >>= next) post :=
  bind (ofExcept h) fun _ hnext => hnext

/-- Other words for the failures keep what the results have. -/
theorem mapFault {post : α → Prop} {run : Halting σ ε α} {f : ε → ε'} (h : Ensures run post) :
    Ensures (run.mapFault f) post := by
  intro state result state' hrun
  unfold Halting.mapFault at hrun
  split at hrun <;> cases hrun
  exact h _ _ _ ‹_›

/-- The result of an attempted computation, where there is one, has the property. -/
theorem attempt {post : α → Prop} {run : Halting σ ε α} (h : Ensures run post) :
    Ensures (run.attempt : Halting σ ε' (Except ε α)) fun outcome =>
      ∀ result, outcome = .ok result → post result := by
  intro state outcome state' hrun result houtcome
  subst houtcome
  unfold Halting.attempt at hrun
  split at hrun <;> cases hrun
  exact h _ _ _ ‹_›

end Ensures

/-- Every failure of a computation has a property. -/
def FailsWith (run : Halting σ ε α) (post : ε → Prop) : Prop :=
  ∀ state cause final, run state = .error (.fault cause) final → post cause

namespace FailsWith

variable {post : ε → Prop}

/-- A property of all failures gives every weaker one. -/
theorem mono {run : Halting σ ε α} {strong : ε → Prop} (h : FailsWith run strong)
    (himp : ∀ cause, strong cause → post cause) : FailsWith run post :=
  fun state cause final hrun => himp cause (h state cause final hrun)

/-- A finished computation has no failures. -/
theorem pure (result : α) : FailsWith (Pure.pure result : Halting σ ε α) post :=
  nofun

/-- A computation that only fails has the property of its cause. -/
theorem fail {cause : ε} (h : post cause) :
    FailsWith (Halting.fail cause : Halting σ ε α) post := by
  intro state found final hrun
  cases hrun
  exact h

/-- Failures come from the first computation or from the next one. -/
theorem bind {first : Halting σ ε α} {next : α → Halting σ ε β} (hfirst : FailsWith first post)
    (hnext : ∀ result, FailsWith (next result) post) : FailsWith (first >>= next) post := by
  intro state cause final hrun
  cases h : first state with
  | ok result between =>
    rw [bind_of_ok h] at hrun
    exact hnext result between cause final hrun
  | error halt between =>
    rw [bind_of_error h] at hrun
    cases hrun
    exact hfirst state cause final h

/-- A check fails with the error of its outcome. -/
theorem ofExcept {outcome : Except ε α} (h : ∀ cause, outcome = .error cause → post cause) :
    FailsWith (Halting.ofExcept outcome : Halting σ ε α) post := by
  cases outcome with
  | ok result => exact pure result
  | error cause => exact fail (h cause rfl)

/-- Failures are described by a function. -/
theorem mapFault {run : Halting σ ε' α} {f : ε' → ε} (h : ∀ cause, post (f cause)) :
    FailsWith (run.mapFault f) post := by
  intro state cause final hrun
  unfold Halting.mapFault at hrun
  split at hrun <;> cases hrun
  exact h _

end FailsWith

end TypedQuery.Halting

namespace TypedQuery

/-- A result does not depend on how failures are described. -/
theorem eq_ok_of_mapError {ε ε' α : Type} {outcome : Except ε α} {f : ε → ε'} {result : α}
    (h : outcome.mapError f = .ok result) : outcome = .ok result := by
  cases outcome with
  | error fault => cases h
  | ok found =>
    cases h
    rfl

/-- The result of an outcome, where there is one, has a property. -/
def Returns {ε α : Type} (outcome : Except ε α) (post : α → Prop) : Prop :=
  ∀ result, outcome = .ok result → post result

namespace Returns

variable {ε α β : Type}

/-- A result with the property is one that has it. -/
theorem ok {post : α → Prop} {result : α} (h : post result) :
    Returns (.ok result : Except ε α) post := by
  rintro _ ⟨⟩
  exact h

/-- A failure has no result to speak of. -/
theorem error {post : α → Prop} (fault : ε) : Returns (.error fault : Except ε α) post := nofun

/-- The property of a result carries over to the outcome that depends on it. -/
theorem bind {first : Except ε α} {next : α → Except ε β} {p : α → Prop} {post : β → Prop}
    (hfirst : Returns first p) (hnext : ∀ result, p result → Returns (next result) post) :
    Returns (first >>= next) post := by
  cases first with
  | error fault => exact nofun
  | ok result => exact hnext result (hfirst result rfl)

/-- A property of the result gives every weaker one. -/
theorem mono {outcome : Except ε α} {weak strong : α → Prop} (h : Returns outcome strong)
    (himp : ∀ result, strong result → weak result) : Returns outcome weak :=
  fun result hresult => himp result (h result hresult)

/-- An outcome is the result that it has. -/
theorem self (outcome : Except ε α) : Returns outcome fun result => outcome = .ok result :=
  fun _ h => h

/-- Other words for the error keep what the result has. -/
theorem mapError {ε' : Type} {outcome : Except ε α} {f : ε → ε'} {post : α → Prop}
    (h : Returns outcome post) : Returns (outcome.mapError f) post := by
  cases outcome with
  | error fault => exact nofun
  | ok result => exact ok (h result rfl)

/-- The results for the items of a list, one for each. -/
theorem mapM (f : α → Except ε β) (items : List α) :
    Returns (items.mapM f) fun results =>
      List.Forall₂ (fun item result => f item = .ok result) items results := by
  induction items with
  | nil => exact ok .nil
  | cons item rest ih =>
    rw [List.mapM_cons]
    exact bind (self _) fun result hresult => bind ih fun results hresults =>
      ok (.cons hresult hresults)

/-- Every result is the result for an item. -/
theorem exists_of_mem_of_forall₂ {related : α → β → Prop} {items : List α} {results : List β}
    (h : List.Forall₂ related items results) {result : β} (hmem : result ∈ results) :
    ∃ item ∈ items, related item result := by
  induction h with
  | nil => cases hmem
  | cons hrelated _ ih =>
    rcases List.mem_cons.mp hmem with rfl | hmem
    · exact ⟨_, List.mem_cons_self, hrelated⟩
    · obtain ⟨item, hitem, hrelated⟩ := ih hmem
      exact ⟨item, List.mem_cons_of_mem _ hitem, hrelated⟩

/-- The items that are kept stand in their order. -/
theorem filterM (f : α → Except ε Bool) (items : List α) :
    Returns (items.filterM f) fun kept => kept.Sublist items := by
  have haux : ∀ (items kept : List α), Returns (items.filterAuxM f kept) fun result =>
      ∃ more : List α, more.Sublist items ∧ result = more.reverse ++ kept := by
    intro items
    induction items with
    | nil => exact fun kept => ok ⟨[], .slnil, rfl⟩
    | cons item rest ih =>
      refine fun kept => bind (self _) fun holds _ => mono (ih _) ?_
      rintro result ⟨more, hmore, rfl⟩
      cases holds with
      | true => exact ⟨item :: more, .cons_cons _ hmore, by simp⟩
      | false => exact ⟨more, .cons _ hmore, rfl⟩
  refine bind (haux items []) ?_
  rintro result ⟨more, hmore, rfl⟩
  exact ok (by simpa using hmore)

end Returns

/-- A list of results is one of a result for each item. -/
theorem mapM_eq_ok {ε α β : Type} {f : α → Except ε β} {items : List α} {results : List β} :
    items.mapM f = .ok results ↔
      List.Forall₂ (fun item result => f item = .ok result) items results := by
  refine ⟨Returns.mapM f items results, fun h => ?_⟩
  induction h with
  | nil => rfl
  | cons hfirst _ ih =>
    rw [List.mapM_cons, hfirst, ih]
    rfl

/-- Results that are changed one by one are changed as a list. -/
theorem mapM_eq_map {ε α β γ : Type} {f : α → Except ε β} {g : α → Except ε γ} {change : β → γ}
    {items : List α} (h : ∀ item ∈ items, g item = (f item).map change) :
    items.mapM g = (items.mapM f).map (List.map change) := by
  induction items with
  | nil => rfl
  | cons item rest ih =>
    rw [List.mapM_cons, List.mapM_cons, h item List.mem_cons_self,
      ih fun other hother => h other (List.mem_cons_of_mem _ hother)]
    cases f item with
    | error fault => rfl
    | ok first =>
      cases rest.mapM f with
      | error fault => rfl
      | ok results => rfl

/-- There are related results if there is one for every item. -/
theorem exists_forall₂_iff {α β : Type} {related : α → β → Prop} {items : List α} :
    (∃ results, List.Forall₂ related items results) ↔
      ∀ item ∈ items, ∃ result, related item result := by
  constructor
  · rintro ⟨results, h⟩ item hitem
    obtain ⟨result, -, hresult⟩ := Returns.exists_of_mem_of_forall₂ h.flip hitem
    exact ⟨result, hresult⟩
  · intro h
    induction items with
    | nil => exact ⟨[], .nil⟩
    | cons item rest ih =>
      obtain ⟨⟨result, hresult⟩, hrest⟩ := List.forall_mem_cons.mp h
      obtain ⟨results, hresults⟩ := ih hrest
      exact ⟨result :: results, .cons hresult hresults⟩

/-- Items of related lists at the same place are related. -/
theorem rel_getElem?_of_forall₂ {α β : Type} {related : α → β → Prop} {items : List α}
    {others : List β} (h : List.Forall₂ related items others) (index : Nat) :
    Option.Rel related items[index]? others[index]? := by
  induction h generalizing index with
  | nil => exact .none
  | cons hfirst _ ih =>
    cases index with
    | zero => exact .some hfirst
    | succ index => simpa using ih index

/-- Items that are related one by one are the sides of pairs. -/
theorem exists_pairs_of_forall₂ {α β : Type} {related : α → β → Prop} {items : List α}
    {others : List β} (h : List.Forall₂ related items others) :
    ∃ pairs : List (α × β), items = pairs.map Prod.fst ∧ others = pairs.map Prod.snd ∧
      ∀ pair ∈ pairs, related pair.1 pair.2 := by
  induction h with
  | nil => exact ⟨[], rfl, rfl, fun _ h => absurd h List.not_mem_nil⟩
  | cons hfirst _ ih =>
    obtain ⟨pairs, rfl, rfl, hpairs⟩ := ih
    exact ⟨(_, _) :: pairs, rfl, rfl, List.forall_mem_cons.mpr ⟨hfirst, hpairs⟩⟩

/-- Two outcomes are the same failure or related results. -/
inductive Parallel {ε α β : Type} (related : α → β → Prop) : Except ε α → Except ε β → Prop
  | ok {a : α} {b : β} (h : related a b) : Parallel related (.ok a) (.ok b)
  | error (fault : ε) : Parallel related (.error fault) (.error fault)

namespace Parallel

variable {ε α β γ δ : Type} {p : α → β → Prop} {q : γ → δ → Prop}

/-- Outcomes that depend on parallel ones are parallel if related results lead to parallel ones. -/
theorem bind {first : Except ε α} {second : Except ε β} {next : α → Except ε γ}
    {other : β → Except ε δ} (h : Parallel p first second)
    (hnext : ∀ a b, p a b → Parallel q (next a) (other b)) :
    Parallel q (first >>= next) (second >>= other) := by
  cases h with
  | ok h => exact hnext _ _ h
  | error fault => exact .error fault

/-- Parallel outcomes are so under every weaker relation. -/
theorem mono {first : Except ε α} {second : Except ε β} {strong : α → β → Prop}
    (h : Parallel strong first second) (himp : ∀ a b, strong a b → p a b) :
    Parallel p first second := by
  cases h with
  | ok h => exact .ok (himp _ _ h)
  | error fault => exact .error fault

/-- An outcome is parallel to itself. -/
theorem self (outcome : Except ε α) : Parallel Eq outcome outcome := by
  cases outcome with
  | ok result => exact .ok rfl
  | error fault => exact .error fault

/-- Under a reflexive relation an outcome is parallel to itself. -/
theorem refl {related : α → α → Prop} (h : ∀ a, related a a) (outcome : Except ε α) :
    Parallel related outcome outcome :=
  (self outcome).mono fun a _ heq => heq ▸ h a

/-- The results that are related are those of the outcomes. -/
theorem results {first : Except ε α} {second : Except ε β} (h : Parallel p first second) :
    Parallel (fun a b => p a b ∧ first = .ok a ∧ second = .ok b) first second := by
  cases h with
  | ok h => exact .ok ⟨h, rfl, rfl⟩
  | error fault => exact .error fault

/-- The results for related items are related one by one. -/
theorem mapM {f : α → Except ε γ} {g : β → Except ε δ} {items : List α} {others : List β}
    (h : List.Forall₂ p items others) (hbody : ∀ a b, p a b → Parallel q (f a) (g b)) :
    Parallel (List.Forall₂ q) (items.mapM f) (others.mapM g) := by
  induction h with
  | nil => exact .ok .nil
  | cons hfirst _ ih =>
    rw [List.mapM_cons, List.mapM_cons]
    exact bind (hbody _ _ hfirst) fun _ _ hresult => bind ih fun _ _ hresults =>
      .ok (.cons hresult hresults)

/-- Of related items the same are kept. -/
theorem filterM {f : α → Except ε Bool} {g : β → Except ε Bool} {items : List α}
    {others : List β} (h : List.Forall₂ p items others)
    (hbody : ∀ a b, p a b → Parallel Eq (f a) (g b)) :
    Parallel (List.Forall₂ p) (items.filterM f) (others.filterM g) := by
  have haux : ∀ {kept : List α} {kept' : List β}, List.Forall₂ p kept kept' →
      Parallel (List.Forall₂ p) (items.filterAuxM f kept) (others.filterAuxM g kept') := by
    induction h with
    | nil => exact fun hkept => .ok hkept
    | cons hfirst _ ih =>
      refine fun hkept => bind (hbody _ _ hfirst) ?_
      rintro holds _ rfl
      cases holds with
      | true => exact ih (.cons hfirst hkept)
      | false => exact ih hkept
  exact bind (haux .nil) fun _ _ hkept => .ok (List.rel_reverse hkept)

end Parallel

namespace Halting

variable {σ ε ε' α β γ δ : Type}

/-- Two computations stop for the same reason or give related results, and do the same to the
state. -/
def Parallel (related : α → β → Prop) (run : Halting σ ε α) (other : Halting σ ε β) : Prop :=
  ∀ state, match run state, other state with
    | .ok a final, .ok b final' => related a b ∧ final = final'
    | .error halt final, .error halt' final' => halt = halt' ∧ final = final'
    | _, _ => False

/-- Two computations that start in related states stop for the same reason or give related results,
and end in related states. -/
def Lockstep (states : σ → σ → Prop) (related : α → β → Prop) (run : Halting σ ε α)
    (other : Halting σ ε β) : Prop :=
  ∀ start start', states start start' → match run start, other start' with
    | .ok a final, .ok b final' => related a b ∧ states final final'
    | .error halt final, .error halt' final' => halt = halt' ∧ states final final'
    | _, _ => False

/-- Parallel computations are in lockstep from the same state. -/
theorem parallel_iff_lockstep {related : α → β → Prop} {run : Halting σ ε α}
    {other : Halting σ ε β} : Parallel related run other ↔ Lockstep Eq related run other := by
  constructor
  · rintro h start _ rfl
    exact h start
  · exact fun h state => h state state rfl

namespace Lockstep

variable {states : σ → σ → Prop} {p : α → β → Prop} {q : γ → δ → Prop}

/-- Finished computations with related results are in lockstep. -/
theorem pure {a : α} {b : β} (h : p a b) :
    Lockstep states p (Pure.pure a : Halting σ ε α) (Pure.pure b) :=
  fun _ _ hstates => ⟨h, hstates⟩

/-- Computations that fail with the same cause are in lockstep. -/
theorem fail (cause : ε) :
    Lockstep states p (Halting.fail cause : Halting σ ε α) (Halting.fail cause) :=
  fun _ _ hstates => ⟨rfl, hstates⟩

/-- Computations that run too deep are in lockstep. -/
theorem tooDeep : Lockstep states p (Halting.tooDeep : Halting σ ε α) Halting.tooDeep :=
  fun _ _ hstates => ⟨rfl, hstates⟩

/-- What two computations in lockstep do in related states. -/
theorem outcome {run : Halting σ ε α} {other : Halting σ ε β} (h : Lockstep states p run other)
    {start start' : σ} (hstates : states start start') :
    (∃ a b final final', run start = .ok a final ∧ other start' = .ok b final' ∧ p a b ∧
        states final final') ∨
      ∃ halt final final', run start = .error halt final ∧ other start' = .error halt final' ∧
        states final final' := by
  have hend := h start start' hstates
  cases hrun : run start with
  | ok a final =>
    cases hother : other start' with
    | ok b final' =>
      rw [hrun, hother] at hend
      exact Or.inl ⟨a, b, final, final', rfl, rfl, hend⟩
    | error halt final' => simp [hrun, hother] at hend
  | error halt final =>
    cases hother : other start' with
    | ok b final' => simp [hrun, hother] at hend
    | error halt' final' =>
      rw [hrun, hother] at hend
      obtain ⟨rfl, hend⟩ := hend
      exact Or.inr ⟨halt, final, final', rfl, rfl, hend⟩

/-- Computations in lockstep stay so with what follows on related results. -/
theorem bind {first : Halting σ ε α} {second : Halting σ ε β} {next : α → Halting σ ε γ}
    {other : β → Halting σ ε δ} (h : Lockstep states p first second)
    (hnext : ∀ a b, p a b → Lockstep states q (next a) (other b)) :
    Lockstep states q (first >>= next) (second >>= other) := by
  intro start start' hstates
  rcases h.outcome hstates with ⟨a, b, final, final', hfirst, hsecond, hab, hbetween⟩ |
    ⟨halt, final, final', hfirst, hsecond, hend⟩
  · rw [bind_of_ok hfirst, bind_of_ok hsecond]
    exact hnext a b hab final final' hbetween
  · rw [bind_of_error hfirst, bind_of_error hsecond]
    exact ⟨rfl, hend⟩

/-- Lockstep holds under every weaker relation of results. -/
theorem mono {run : Halting σ ε α} {other : Halting σ ε β} {strong : α → β → Prop}
    (h : Lockstep states strong run other) (himp : ∀ a b, strong a b → p a b) :
    Lockstep states p run other := by
  intro start start' hstates
  rcases h.outcome hstates with ⟨a, b, final, final', hrun, hother, hab, hend⟩ |
    ⟨halt, final, final', hrun, hother, hend⟩
  · rw [hrun, hother]
    exact ⟨himp a b hab, hend⟩
  · rw [hrun, hother]
    exact ⟨rfl, hend⟩

/-- Checks with parallel outcomes are in lockstep. -/
theorem ofExcept {first : Except ε α} {second : Except ε β}
    (h : TypedQuery.Parallel p first second) :
    Lockstep states p (Halting.ofExcept first : Halting σ ε α) (Halting.ofExcept second) := by
  cases h with
  | ok h => exact pure h
  | error fault => exact fail fault

/-- Both go on from the same check. -/
theorem check {outcome : Except ε α} {next : α → Halting σ ε γ} {other : α → Halting σ ε δ}
    (h : ∀ result, Lockstep states q (next result) (other result)) :
    Lockstep states q (Halting.ofExcept outcome >>= next) (Halting.ofExcept outcome >>= other) :=
  bind (ofExcept (.self outcome)) fun result _ heq => heq ▸ h result

/-- Both take the same branch. -/
theorem ite {c : Prop} [Decidable c] {yes no : Halting σ ε α} {yes' no' : Halting σ ε β}
    (hyes : c → Lockstep states p yes yes') (hno : ¬c → Lockstep states p no no') :
    Lockstep states p (if c then yes else no) (if c then yes' else no') := by
  by_cases hc : c
  · rw [if_pos hc, if_pos hc]
    exact hyes hc
  · rw [if_neg hc, if_neg hc]
    exact hno hc

/-- Lockstep is kept when both name their failures in other words. -/
theorem mapFault {run : Halting σ ε α} {other : Halting σ ε β} {f : ε → ε'}
    (h : Lockstep states p run other) :
    Lockstep states p (run.mapFault f) (other.mapFault f) := by
  intro start start' hstates
  unfold Halting.mapFault
  rcases h.outcome hstates with ⟨a, b, final, final', hrun, hother, hab, hend⟩ |
    ⟨halt, final, final', hrun, hother, hend⟩
  · rw [hrun, hother]
    exact ⟨hab, hend⟩
  · rw [hrun, hother]
    cases halt with
    | fault cause => exact ⟨rfl, hend⟩
    | depth => exact ⟨rfl, hend⟩

/-- Attempts of computations in lockstep give parallel outcomes. -/
theorem attempt {run : Halting σ ε α} {other : Halting σ ε β} (h : Lockstep states p run other) :
    Lockstep states (TypedQuery.Parallel p) (run.attempt : Halting σ ε' (Except ε α))
      other.attempt := by
  intro start start' hstates
  unfold Halting.attempt
  rcases h.outcome hstates with ⟨a, b, final, final', hrun, hother, hab, hend⟩ |
    ⟨halt, final, final', hrun, hother, hend⟩
  · rw [hrun, hother]
    exact ⟨.ok hab, hend⟩
  · rw [hrun, hother]
    cases halt with
    | fault cause => exact ⟨.error cause, hend⟩
    | depth => exact ⟨rfl, hend⟩

end Lockstep

/-- Parallel computations are so under every weaker relation. -/
theorem Parallel.mono {run : Halting σ ε α} {other : Halting σ ε β} {strong weak : α → β → Prop}
    (h : Parallel strong run other) (himp : ∀ a b, strong a b → weak a b) :
    Parallel weak run other :=
  parallel_iff_lockstep.mpr ((parallel_iff_lockstep.mp h).mono himp)

end Halting

end TypedQuery

namespace TypedQuery.Run

variable {ε : Type}

/-- Fresh names are numbered. -/
theorem freshName_ensures :
    Halting.Ensures (freshName : Run ε String) fun name => ∃ n : Nat, name = "p" ++ toString n := by
  intro state name state' hrun
  cases hrun
  exact ⟨_, rfl⟩

/-- A record type has the fields that were asked for, repetitions settled. -/
theorem recordType_ensures (fields : List (String × Ty)) :
    Halting.Ensures (recordType fields : Run ε Signature) fun signature =>
      signature = Entries.ofList fields := by
  intro state signature state' hrun
  cases hrun
  exact state.register.fields_create fields

/-- A fresh name never fails. -/
theorem freshName_fails (post : ε → Prop) : Halting.FailsWith (freshName : Run ε String) post := by
  intro state cause state' hrun
  cases hrun

/-- A record type never fails. -/
theorem recordType_fails (fields : List (String × Ty)) (post : ε → Prop) :
    Halting.FailsWith (recordType fields : Run ε Signature) post := by
  intro state cause state' hrun
  cases hrun

end TypedQuery.Run
