import AccountRegistry.Procedure

/-!
# How procedures end

`>>=` read through the two views of an ending that the theory is about, its outcome and its state;
the log plays no part in it.  `Keeps` says that a procedure leaves a view of the state alone
however it ends, and is closed under everything that procedures are built from.
-/

namespace AccountRegistry

/-- A sequence of computations without a state has a result exactly if both of its parts do. -/
theorem except_bind_eq_ok {ε α β : Type} {first : Except ε α} {next : α → Except ε β}
    {result : β} :
    (first >>= next) = .ok result ↔ ∃ value, first = .ok value ∧ next value = .ok result := by
  cases first with
  | error fault => simp [bind, Except.bind]
  | ok value => simp [bind, Except.bind]

/-- A sequence of computations without a state fails at the first part that does. -/
theorem except_bind_eq_error {ε α β : Type} {first : Except ε α} {next : α → Except ε β}
    {fault : ε} :
    (first >>= next) = .error fault ↔
      first = .error fault ∨ ∃ value, first = .ok value ∧ next value = .error fault := by
  cases first with
  | error fault => simp [bind, Except.bind]
  | ok value => simp [bind, Except.bind]

/-- Whether a computation has a result, and which, can be computed. -/
theorem except_eq_ok_of_toOption {ε α : Type} {result : Except ε α} {value : α}
    (hvalue : result.toOption = some value) : result = .ok value := by
  cases result with
  | ok given => exact congrArg Except.ok (Option.some.inj hvalue)
  | error fault => cases hvalue

namespace Procedure

variable {σ α β γ : Type}

/-! ## Outcome and state of a sequence -/

theorem outcome_bind (procedure : Procedure σ α) (next : α → Procedure σ β) (state : σ) :
    ((procedure >>= next) state).outcome =
      match (procedure state).outcome with
      | .ok value => (next value (procedure state).state).outcome
      | .error stop => .error stop := by
  cases hended : (procedure state).outcome with
  | ok value => rw [bind_of_ok next hended]
  | error stop => rw [bind_of_error next hended]

theorem state_bind (procedure : Procedure σ α) (next : α → Procedure σ β) (state : σ) :
    ((procedure >>= next) state).state =
      match (procedure state).outcome with
      | .ok value => (next value (procedure state).state).state
      | .error _ => (procedure state).state := by
  cases hended : (procedure state).outcome with
  | ok value => rw [bind_of_ok next hended]
  | error stop => rw [bind_of_error next hended]

/-- A sequence ends with a result exactly if both of its parts do. -/
theorem outcome_bind_eq_ok {procedure : Procedure σ α} {next : α → Procedure σ β} {state : σ}
    {result : β} :
    ((procedure >>= next) state).outcome = .ok result ↔
      ∃ value, (procedure state).outcome = .ok value ∧
        (next value (procedure state).state).outcome = .ok result := by
  rw [outcome_bind]
  cases (procedure state).outcome with
  | ok value => simp
  | error stop => simp

theorem outcome_bind_pure (procedure : Procedure σ α) (f : α → β) (state : σ) :
    ((procedure >>= fun value => pure (f value)) state).outcome =
      (procedure state).outcome.map f := by
  rw [outcome_bind]
  cases (procedure state).outcome with
  | ok value => rfl
  | error stop => rfl

/-- Sequences can be grouped either way. -/
theorem bind_bind (procedure : Procedure σ α) (next : α → Procedure σ β)
    (last : β → Procedure σ γ) :
    (procedure >>= next) >>= last = procedure >>= fun value => next value >>= last := by
  funext state
  show andThen (andThen procedure next) last state =
    andThen procedure (fun value => andThen (next value) last) state
  unfold andThen
  dsimp only
  cases (procedure state).outcome with
  | error stop => rfl
  | ok value =>
      dsimp only
      cases (next value (procedure state).state).outcome with
      | error stop => rfl
      | ok value => simp only [List.append_assoc]

/-! ## The primitives in front of a sequence -/

@[simp] theorem get_bind (next : σ → Procedure σ β) (state : σ) :
    (get >>= next) state = next state state := rfl

@[simp] theorem modify_bind (f : σ → σ) (next : Unit → Procedure σ β) (state : σ) :
    (modify f >>= next) state = next () (f state) := rfl

@[simp] theorem pure_bind_run (value : α) (next : α → Procedure σ β) (state : σ) :
    ((pure value : Procedure σ α) >>= next) state = next value state := rfl

@[simp] theorem fail_run (fault : Fault) (state : σ) :
    (fail fault : Procedure σ α) state = ⟨.error (.failed fault), state, []⟩ := rfl

@[simp] theorem stop_run (reason : Stop) (state : σ) :
    (stop reason : Procedure σ α) state = ⟨.error reason, state, []⟩ := rfl

@[simp] theorem outcome_note_bind (severity : Log.Severity) (message : String)
    (args : List Value) (next : Unit → Procedure σ β) (state : σ) :
    ((note severity message args >>= next) state).outcome = (next () state).outcome := rfl

@[simp] theorem ofStop_ok (value : α) :
    (ofStop (.ok value) : Procedure σ α) = pure value := rfl

@[simp] theorem state_attempt (procedure : Procedure σ α) (state : σ) :
    (procedure.attempt state).state = (procedure state).state := by
  unfold attempt
  dsimp only
  split <;> rfl

/-! ## Views that a procedure keeps -/

/-- However the procedure ends, it leaves this view of the state as it was. -/
def Keeps (view : σ → γ) (procedure : Procedure σ α) : Prop :=
  ∀ state, view (procedure state).state = view state

namespace Keeps

variable {view : σ → γ}

theorem state_eq {procedure : Procedure σ α} (hkeeps : Keeps id procedure) (state : σ) :
    (procedure state).state = state :=
  hkeeps state

theorem pure (value : α) : Keeps view (Pure.pure value : Procedure σ α) :=
  fun _ => rfl

theorem get : Keeps view (Procedure.get : Procedure σ σ) :=
  fun _ => rfl

theorem stop (reason : Stop) : Keeps view (Procedure.stop reason : Procedure σ α) :=
  fun _ => rfl

theorem fail (fault : Fault) : Keeps view (Procedure.fail fault : Procedure σ α) :=
  fun _ => rfl

theorem note (severity : Log.Severity) (message : String) (args : List Value) :
    Keeps view (Procedure.note severity message args : Procedure σ Unit) :=
  fun _ => rfl

theorem modify {f : σ → σ} (hview : ∀ state, view (f state) = view state) :
    Keeps view (Procedure.modify f) :=
  hview

theorem ofExcept (value : Except Fault α) :
    Keeps view (Procedure.ofExcept value : Procedure σ α) := by
  cases value with
  | ok value => exact pure value
  | error fault => exact fail fault

theorem ofStop (value : Except Stop α) : Keeps view (Procedure.ofStop value : Procedure σ α) := by
  cases value with
  | ok value => exact pure value
  | error reason => exact stop reason

theorem orEscape (value : Except Fault α) :
    Keeps view (Procedure.orEscape value : Procedure σ α) := by
  cases value with
  | ok value => exact pure value
  | error fault => exact stop (.escaped fault)

theorem bind {procedure : Procedure σ α} {next : α → Procedure σ β}
    (hfirst : Keeps view procedure) (hnext : ∀ value, Keeps view (next value)) :
    Keeps view (procedure >>= next) := by
  intro state
  rw [state_bind]
  cases (procedure state).outcome with
  | ok value => exact (hnext value _).trans (hfirst state)
  | error stop => exact hfirst state

theorem attempt {procedure : Procedure σ α} (hkeeps : Keeps view procedure) :
    Keeps view procedure.attempt := by
  intro state
  rw [state_attempt]
  exact hkeeps state

end Keeps

/-- What comes after the last write has no part in the state at the end. -/
theorem state_bind_of_keeps {procedure : Procedure σ α} {next : α → Procedure σ β}
    (hnext : ∀ value, Keeps id (next value)) (state : σ) :
    ((procedure >>= next) state).state = (procedure state).state := by
  rw [state_bind]
  cases (procedure state).outcome with
  | ok value => exact hnext value _
  | error stop => rfl

end Procedure

end AccountRegistry
