import TypedQuery.Document.Execution
import TypedQuery.Proofs.Computation

/-!
# Recorded runs

The run of a document beside a list of the routines that it calls. Every step is the step of the
run itself, and a call is noted where the routine is called. Leaving out the notes gives the run.
-/

namespace TypedQuery

open Halting

/-- A routine that was called, and what it received. -/
structure Call where
  mutation : Mutation
  invocation : Invocation

/-- A world, and the calls on the way to it. -/
structure Journal where
  world : World
  calls : List Call

/-- A computation that notes its calls. -/
abbrev Recorded (ε α : Type) := Halting Journal ε α

namespace Recorded

variable {ε ε' α β : Type}

/-- A computation that calls nothing. -/
def ofExecution (run : Execution ε α) : Recorded ε α := fun journal =>
  match run journal.world with
  | .ok result world => .ok result { journal with world }
  | .error halt world => .error halt { journal with world }

/-- Notes a call. -/
def note (call : Call) : Recorded ε Unit := fun journal =>
  .ok () { journal with calls := journal.calls ++ [call] }

/-- A recorded computation without its notes is the other one. -/
def Erases (recorded : Recorded ε α) (run : Execution ε α) : Prop :=
  ∀ journal, run journal.world = match recorded journal with
    | .ok result after => .ok result after.world
    | .error halt after => .error halt after.world

namespace Erases

/-- Results need no notes. -/
theorem pure (result : α) :
    Erases (Pure.pure result : Recorded ε α) (Pure.pure result) :=
  fun _ => rfl

/-- Failures need no notes. -/
theorem fail (cause : ε) : Erases (Halting.fail cause : Recorded ε α) (Halting.fail cause) :=
  fun _ => rfl

/-- A computation that calls nothing is itself without its notes. -/
theorem ofExecution (run : Execution ε α) : Erases (Recorded.ofExecution run) run := by
  intro journal
  unfold Recorded.ofExecution
  cases run journal.world with
  | ok result world => rfl
  | error halt world => rfl

/-- Computations one after another are the others without their notes. -/
theorem bind {recorded : Recorded ε α} {run : Execution ε α} {next : α → Recorded ε β}
    {other : α → Execution ε β} (h : Erases recorded run)
    (hnext : ∀ result, Erases (next result) (other result)) :
    Erases (recorded >>= next) (run >>= other) := by
  intro journal
  have hrun := h journal
  cases hrecorded : recorded journal with
  | ok result after =>
    rw [hrecorded] at hrun
    rw [bind_of_ok hrecorded, bind_of_ok hrun]
    exact hnext result after
  | error halt after =>
    rw [hrecorded] at hrun
    rw [bind_of_error hrecorded, bind_of_error hrun]

/-- A note changes nothing in what follows. -/
theorem note_bind {call : Call} {next : Unit → Recorded ε α} {run : Execution ε α}
    (h : Erases (next ()) run) : Erases (note call >>= next) run :=
  fun journal => h { journal with calls := journal.calls ++ [call] }

/-- Both go on from the world as it is. -/
theorem get_bind {next : Journal → Recorded ε α} {other : World → Execution ε α}
    (h : ∀ journal, Erases (next journal) (other journal.world)) :
    Erases (get >>= next) (get >>= other) :=
  fun journal => h journal journal

/-- An attempt is that of the other computation without its notes. -/
theorem attempt {recorded : Recorded ε α} {run : Execution ε α} (h : Erases recorded run) :
    Erases (recorded.attempt : Recorded ε' (Except ε α)) run.attempt := by
  intro journal
  have hrun := h journal
  unfold Halting.attempt
  cases hrecorded : recorded journal with
  | ok result after =>
    rw [hrecorded] at hrun
    simp only [hrun]
  | error halt after =>
    rw [hrecorded] at hrun
    cases halt <;> simp only [hrun]

end Erases

/-- What a computation adds to the notes has a property, which may depend on whether there is a
result. -/
def Adds (run : Recorded ε α) (finished stopped : List Call → Prop) : Prop :=
  ∀ journal, match run journal with
    | .ok _ after => ∃ made, after.calls = journal.calls ++ made ∧ finished made
    | .error _ after => ∃ made, after.calls = journal.calls ++ made ∧ stopped made

/-- A computation that adds nothing to the notes. -/
abbrev Silent (run : Recorded ε α) : Prop := run.Adds (· = []) (· = [])

namespace Adds

variable {finished stopped finished' stopped' : List Call → Prop}

/-- What is added to the notes has every weaker property. -/
theorem mono {run : Recorded ε α} (h : run.Adds finished stopped)
    (hfinished : ∀ made, finished made → finished' made)
    (hstopped : ∀ made, stopped made → stopped' made) : run.Adds finished' stopped' := by
  intro journal
  have hrun := h journal
  cases hresult : run journal with
  | ok result after =>
    rw [hresult] at hrun
    obtain ⟨made, hcalls, hmade⟩ := hrun
    exact ⟨made, hcalls, hfinished made hmade⟩
  | error halt after =>
    rw [hresult] at hrun
    obtain ⟨made, hcalls, hmade⟩ := hrun
    exact ⟨made, hcalls, hstopped made hmade⟩

/-- The notes of a computation in two parts are those of the first, and then those of the
second. -/
theorem bind {run : Recorded ε α} {next : α → Recorded ε β} (h : run.Adds finished stopped)
    (hnext : ∀ result made, finished made →
      (next result).Adds (fun more => finished' (made ++ more)) fun more =>
        stopped' (made ++ more))
    (hstopped : ∀ made, stopped made → stopped' made) :
    Adds (run >>= next) finished' stopped' := by
  intro journal
  have hrun := h journal
  cases hresult : run journal with
  | ok result between =>
    rw [hresult] at hrun
    obtain ⟨made, hcalls, hmade⟩ := hrun
    have hrest := hnext result made hmade between
    rw [bind_of_ok hresult]
    cases hresult' : next result between with
    | ok _ after =>
      rw [hresult'] at hrest
      obtain ⟨more, hmore, hpost⟩ := hrest
      exact ⟨made ++ more, by rw [hmore, hcalls, List.append_assoc], hpost⟩
    | error _ after =>
      rw [hresult'] at hrest
      obtain ⟨more, hmore, hpost⟩ := hrest
      exact ⟨made ++ more, by rw [hmore, hcalls, List.append_assoc], hpost⟩
  | error halt after =>
    rw [hresult] at hrun
    obtain ⟨made, hcalls, hmade⟩ := hrun
    rw [bind_of_error hresult]
    exact ⟨made, hcalls, hstopped made hmade⟩

/-- A result adds nothing to the notes. -/
theorem pure {result : α} (h : finished []) :
    Adds (Pure.pure result : Recorded ε α) finished stopped :=
  fun _ => ⟨[], (List.append_nil _).symm, h⟩

/-- A failure adds nothing to the notes. -/
theorem fail {cause : ε} (h : stopped []) :
    Adds (Halting.fail cause : Recorded ε α) finished stopped :=
  fun _ => ⟨[], (List.append_nil _).symm, h⟩

/-- A computation that calls nothing adds nothing to the notes. -/
theorem ofExecution (run : Execution ε α) : Silent (Recorded.ofExecution run) := by
  intro journal
  unfold Recorded.ofExecution
  cases run journal.world with
  | ok result world => exact ⟨[], (List.append_nil _).symm, rfl⟩
  | error halt world => exact ⟨[], (List.append_nil _).symm, rfl⟩

/-- What follows a step of the run itself adds something, and knows what the step has given. -/
theorem ofExecution_bind {run : Execution ε α} {next : α → Recorded ε β}
    (hnext : ∀ world result after, run world = .ok result after →
      (next result).Adds finished stopped)
    (hstopped : ∀ world halt after, run world = .error halt after → stopped []) :
    Adds (Recorded.ofExecution run >>= next) finished stopped := by
  intro journal
  cases hrun : run journal.world with
  | ok result after =>
    have hfirst : Recorded.ofExecution run journal =
        .ok result { journal with world := after } := by
      unfold Recorded.ofExecution
      rw [hrun]
    rw [bind_of_ok hfirst]
    exact hnext journal.world result after hrun { journal with world := after }
  | error halt after =>
    have hfirst : Recorded.ofExecution run journal =
        .error halt { journal with world := after } := by
      unfold Recorded.ofExecution
      rw [hrun]
    rw [bind_of_error hfirst]
    exact ⟨[], (List.append_nil _).symm, hstopped journal.world halt after hrun⟩

/-- Reading the journal adds nothing to it. -/
theorem get : Silent (MonadState.get : Recorded ε Journal) :=
  fun _ => ⟨[], (List.append_nil _).symm, rfl⟩

/-- Only the second part adds something. -/
theorem silent_bind {run : Recorded ε α} {next : α → Recorded ε β} (h : run.Silent)
    (hnext : ∀ result, (next result).Adds finished stopped) (hstopped : stopped []) :
    Adds (run >>= next) finished stopped :=
  bind h (fun result _ hmade => hmade ▸ hnext result) fun _ hmade => hmade ▸ hstopped

/-- Only the first part adds something, which is one call. -/
theorem note_bind {call : Call} {next : Unit → Recorded ε α} (h : (next ()).Silent)
    (hfinished : finished [call]) (hstopped : stopped [call]) :
    Adds (note call >>= next) finished stopped := by
  have hnote : Adds (note call : Recorded ε Unit) (· = [call]) fun _ => False :=
    fun _ => ⟨[call], rfl, rfl⟩
  refine bind hnote (fun _ made hmade => hmade ▸ mono h ?_ ?_) fun _ hmade => hmade.elim
  · rintro _ rfl
    exact hfinished
  · rintro _ rfl
    exact hstopped

/-- An attempt adds what the computation adds, whether there is a result or a failure. -/
theorem attempt {run : Recorded ε α} (h : run.Adds finished stopped) :
    Adds (run.attempt : Recorded ε' (Except ε α)) (fun made => finished made ∨ stopped made)
      stopped := by
  intro journal
  have hrun := h journal
  unfold Halting.attempt
  cases hresult : run journal with
  | ok result after =>
    rw [hresult] at hrun
    obtain ⟨made, hcalls, hmade⟩ := hrun
    exact ⟨made, hcalls, Or.inl hmade⟩
  | error halt after =>
    rw [hresult] at hrun
    obtain ⟨made, hcalls, hmade⟩ := hrun
    cases halt with
    | fault cause => exact ⟨made, hcalls, Or.inr hmade⟩
    | depth => exact ⟨made, hcalls, hmade⟩

end Adds

end Recorded

/-- Calls a mutation, notes the call, and selects from the result. -/
def PendingMutation.recorded (pending : PendingMutation) (host : Host) (services : Services)
    (claims : Claims) : Recorded Failure Json := do
  let context ← Recorded.ofExecution Execution.freshContext
  let invocation ← Recorded.ofExecution ((pending.mutation.invocation host.schema services claims
    context pending.arguments).mapFault (⟨.compile ·, pending.path⟩))
  Recorded.note ⟨pending.mutation, invocation⟩
  let result ← Recorded.ofExecution ((Execution.ofRoutine (pending.mutation.routine
    invocation)).mapFault (⟨.routine ·, pending.path⟩))
  let query ← Recorded.ofExecution
    ((Execution.ofRun (pending.resultQuery host claims result)).mapFault Failure.ofField)
  let context ← match result with
    | .value value _ => pure value
    | .requery _ _ => Recorded.ofExecution Execution.freshContext
  match query.run services context with
  | .ok value => return value.toJson (some host.schema)
  | .error fault => Halting.fail ⟨.run fault, pending.path⟩

/-- Runs the outcome of a field and notes its call. -/
def Outcome.recorded (outcome : Outcome) (host : Host) (services : Services) (claims : Claims)
    (context : Value) (name : String) : Recorded Failure Json :=
  match outcome with
  | .mutation pending => pending.recorded host services claims
  | other => Recorded.ofExecution (other.run host services claims context name)

/-- Runs outcomes one after another and notes their calls. -/
def recordOutcomes (host : Host) (services : Services) (claims : Claims) (context : Value) :
    List (String × Outcome) → Recorded Empty (List (String × Json) × List Json)
  | [] => return ([], [])
  | (name, outcome) :: rest => do
    let result ← (outcome.recorded host services claims context name).attempt
    let register := (← get).world.register
    let (data, errors) ← recordOutcomes host services claims context rest
    match result with
    | .ok json => return ((name, json) :: data, errors)
    | .error failure =>
      return ((name, .null) :: data,
        errorEntry (failure.cause.message register) failure.path :: errors)

/-- Runs a compiled document and notes its calls. -/
def Host.recordExecution (host : Host) (services : Services) (document : CompiledDocument) :
    Recorded Empty Json := do
  let context ← match document.kind with
    | .query => Recorded.ofExecution Execution.freshContext
    | .mutation => pure .null
  let (data, errors) ← recordOutcomes host services document.claims context document.fields
  return envelope (.object data) errors

/-- Compiles and runs a source text and notes its calls. -/
def Host.recorded (host : Host) (services : Services) (source : String) (request : Request) :
    Recorded Empty Json := do
  match ← Recorded.ofExecution (Execution.ofRun (host.compileDocument source request)).attempt with
  | .ok document => host.recordExecution services document
  | .error fault => return failedEnvelope (← get).world.register fault

namespace Recorded

/-- A mutation whose call is noted runs as one whose call is not. -/
theorem erases_pendingMutation (pending : PendingMutation) (host : Host) (services : Services)
    (claims : Claims) :
    Erases (pending.recorded host services claims) (pending.run host services claims) := by
  refine .bind (.ofExecution _) fun context => .bind (.ofExecution _) fun invocation =>
    .note_bind ?_
  refine .bind (.ofExecution _) fun result => .bind (.ofExecution _) fun query => ?_
  have hanswer : ∀ context, Erases (match query.run services context with
      | .ok value => Pure.pure (value.toJson (some host.schema))
      | .error fault => Halting.fail ⟨.run fault, pending.path⟩ : Recorded Failure Json)
      (match query.run services context with
      | .ok value => Pure.pure (value.toJson (some host.schema))
      | .error fault => Halting.fail ⟨.run fault, pending.path⟩) := by
    intro context
    cases query.run services context with
    | ok value => exact .pure _
    | error fault => exact .fail _
  cases result with
  | value value ty => exact .bind (.pure value) hanswer
  | requery expression vars => exact .bind (.ofExecution _) hanswer

/-- An outcome whose call is noted runs as one whose call is not. -/
theorem erases_outcome (outcome : Outcome) (host : Host) (services : Services) (claims : Claims)
    (context : Value) (name : String) :
    Erases (outcome.recorded host services claims context name)
      (outcome.run host services claims context name) := by
  cases outcome with
  | mutation pending => exact erases_pendingMutation pending host services claims
  | query compiled => exact .ofExecution _
  | failed failure => exact .ofExecution _

/-- Outcomes whose calls are noted run as those whose calls are not. -/
theorem erases_outcomes (host : Host) (services : Services) (claims : Claims) (context : Value)
    (outcomes : List (String × Outcome)) :
    Erases (recordOutcomes host services claims context outcomes)
      (runOutcomes host services claims context outcomes) := by
  induction outcomes with
  | nil => exact .pure _
  | cons entry rest ih =>
    refine .bind (.attempt (erases_outcome _ host services claims context _)) fun result =>
      .get_bind fun journal => .bind ih fun results => ?_
    cases result with
    | ok json => exact .pure _
    | error failure => exact .pure _

/-- A document whose calls are noted runs as one whose calls are not. -/
theorem erases_execution (host : Host) (services : Services) (document : CompiledDocument) :
    Erases (host.recordExecution services document) (host.execute services document) := by
  have houtcomes : ∀ context, Erases
      (recordOutcomes host services document.claims context document.fields >>= fun results =>
        Pure.pure (envelope (.object results.1) results.2))
      (runOutcomes host services document.claims context document.fields >>= fun results =>
        Pure.pure (envelope (.object results.1) results.2)) :=
    fun context => .bind (erases_outcomes host services _ context _) fun _ => .pure _
  unfold Host.recordExecution Host.execute
  cases document.kind with
  | query => exact .bind (.ofExecution _) houtcomes
  | mutation => exact .bind (.pure _) houtcomes

/-- The recorded run of a source text is its run. -/
theorem erases_run (host : Host) (services : Services) (source : String) (request : Request) :
    Erases (host.recorded services source request) (host.run services source request) := by
  refine .bind (.ofExecution _) fun compiled => ?_
  cases compiled with
  | ok document => exact erases_execution host services document
  | error fault => exact .get_bind fun journal => .pure _

end Recorded

end TypedQuery
