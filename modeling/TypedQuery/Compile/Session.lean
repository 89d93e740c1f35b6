import TypedQuery.Compile.Fault

/-!
# Sessions

What compilations share: the names that were given to parameters, and the record
types that occurred. A failure leaves both as they were when it was found.
-/

namespace TypedQuery

/-- The number of parameters that got names, and the record types. -/
structure Session where
  parameters : Nat
  register : Register

instance : Inhabited Session := ⟨⟨0, .empty⟩⟩

/-- Why a computation stopped without a result: a failure, or fields that refer to
each other more deeply than was allowed. -/
inductive Halt (ε : Type)
  | fault (cause : ε)
  | depth

/-- A computation with a state that may stop. The state survives a failure. -/
abbrev Halting (σ ε α : Type) := EStateM (Halt ε) σ α

/-- A computation in a session. -/
abbrev Run (ε α : Type) := Halting Session ε α

/-- A compilation. -/
abbrev Compile (α : Type) := Run CompileFault α

namespace Halting

variable {σ ε ε' α : Type}

/-- Stops with a failure. -/
def fail (cause : ε) : Halting σ ε α :=
  throw (.fault cause)

/-- Stops because fields refer to each other too deeply. -/
def tooDeep : Halting σ ε α :=
  throw .depth

/-- The outcome of a check as a computation. -/
def ofExcept : Except ε α → Halting σ ε α
  | .ok result => pure result
  | .error cause => fail cause

/-- The same computation with other failures. -/
def mapFault (f : ε → ε') (run : Halting σ ε α) : Halting σ ε' α := fun state =>
  match run state with
  | .ok result state => .ok result state
  | .error (.fault cause) state => .error (.fault (f cause)) state
  | .error .depth state => .error .depth state

/-- The result of a computation or its failure. -/
def attempt (run : Halting σ ε α) : Halting σ ε' (Except ε α) := fun state =>
  match run state with
  | .ok result state => .ok (.ok result) state
  | .error (.fault cause) state => .ok (.error cause) state
  | .error .depth state => .error .depth state

end Halting

namespace Run

variable {ε : Type}

/-- A name that no other parameter of the session has. -/
def freshName : Run ε String := fun session =>
  .ok ("p" ++ toString session.parameters) { session with parameters := session.parameters + 1 }

/-- The record type of a list of fields. -/
def recordType (fields : List (String × Ty)) : Run ε Signature := fun session =>
  let (type, register) := session.register.create fields
  .ok type { session with register }

end Run

end TypedQuery
