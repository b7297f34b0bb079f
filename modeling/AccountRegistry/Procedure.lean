import AccountRegistry.Log.Entry

/-!
# Procedures

A procedure runs on a state, may say things to the log, and ends with a result or with the reason
why there is none.  What it changed and said before it stopped stays.
-/

namespace AccountRegistry

/-- What running a procedure came to. -/
structure Ending (σ α : Type) where
  outcome : Except Stop α
  state : σ
  log : List Log.Entry

/-- A computation on a state of type `σ`. -/
def Procedure (σ α : Type) := σ → Ending σ α

namespace Procedure

variable {σ α β : Type}

/-- Go on with the result of a procedure; one that stopped stays stopped. -/
def andThen (procedure : Procedure σ α) (next : α → Procedure σ β) : Procedure σ β :=
  fun state =>
    let first := procedure state
    match first.outcome with
    | .ok value =>
        let second := next value first.state
        { second with log := first.log ++ second.log }
    | .error stop => ⟨.error stop, first.state, first.log⟩

instance : Monad (Procedure σ) where
  pure value := fun state => ⟨.ok value, state, []⟩
  bind := andThen

@[simp] theorem pure_run (value : α) (state : σ) :
    (pure value : Procedure σ α) state = ⟨.ok value, state, []⟩ := rfl

theorem bind_of_ok {procedure : Procedure σ α} {state : σ} {value : α}
    (next : α → Procedure σ β) (ended : (procedure state).outcome = .ok value) :
    (procedure >>= next) state =
      ⟨(next value (procedure state).state).outcome, (next value (procedure state).state).state,
        (procedure state).log ++ (next value (procedure state).state).log⟩ := by
  show andThen procedure next state = _
  simp only [andThen, ended]

theorem bind_of_error {procedure : Procedure σ α} {state : σ} {stop : Stop}
    (next : α → Procedure σ β) (ended : (procedure state).outcome = .error stop) :
    (procedure >>= next) state =
      ⟨.error stop, (procedure state).state, (procedure state).log⟩ := by
  show andThen procedure next state = _
  simp only [andThen, ended]

/-- The state. -/
def get : Procedure σ σ := fun state => ⟨.ok state, state, []⟩

/-- Change the state. -/
def modify (f : σ → σ) : Procedure σ Unit := fun state => ⟨.ok (), f state, []⟩

/-- Stop for a reason. -/
def stop (reason : Stop) : Procedure σ α := fun state => ⟨.error reason, state, []⟩

/-- End with a fault as the result. -/
def fail (fault : Fault) : Procedure σ α := stop (.failed fault)

/-- A result that may be a fault. -/
def ofExcept : Except Fault α → Procedure σ α
  | .ok value => pure value
  | .error fault => fail fault

/-- A result that may be a reason to stop. -/
def ofStop : Except Stop α → Procedure σ α
  | .ok value => pure value
  | .error reason => stop reason

/-- A value whose fault escapes instead of being returned. -/
def orEscape : Except Fault α → Procedure σ α
  | .ok value => pure value
  | .error fault => stop (.escaped fault)

/-- Say something to the log. -/
def note (severity : Log.Severity) (message : String) (args : List Value) : Procedure σ Unit :=
  fun state => ⟨.ok (), state, [⟨severity, .text message, args⟩]⟩

/-- The result of a procedure or the fault that it returned; an escaping fault is not caught. -/
def attempt (procedure : Procedure σ α) : Procedure σ (Except Fault α) := fun state =>
  let run := procedure state
  match run.outcome with
  | .ok value => { run with outcome := .ok (.ok value) }
  | .error (.failed fault) => { run with outcome := .ok (.error fault) }
  | .error (.escaped fault) => { run with outcome := .error (.escaped fault) }

end Procedure

end AccountRegistry
