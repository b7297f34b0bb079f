import AccountRegistry.Proofs.Procedure

/-!
# How procedures stop

A procedure that stops has returned a fault, or a fault escaped from it.  `StopsWithin` says that
an outcome can only be a refusal, and with which codes.  It is closed under everything that
procedures are built from, where each part knows the results and the state of those before it.
`Guarded` says the same of a procedure in every state that satisfies an invariant, which the
procedure keeps however it ends.

`Ending.Refused` is a refusal after which the state is as it was.
-/

namespace AccountRegistry

/-- A fault that was returned, and that is a refusal with one of the codes. -/
def Stop.Within (codes : List FaultCode) : Stop → Prop
  | .failed fault => ∃ code ∈ codes, fault.code? = some code
  | .escaped _ => False

theorem Stop.Within.mono {codes more : List FaultCode} {stop : Stop}
    (hwithin : stop.Within codes) (hsubset : codes ⊆ more) : stop.Within more := by
  cases stop with
  | escaped fault => exact hwithin
  | failed fault =>
      obtain ⟨code, hmem, hcode⟩ := hwithin
      exact ⟨code, hsubset hmem, hcode⟩

/-- The code of the refusal that was returned. -/
def Stop.code? : Stop → Option FaultCode
  | .failed fault => fault.code?
  | .escaped _ => none

theorem Stop.Within.code?_mem {codes : List FaultCode} {stop : Stop} {code : FaultCode}
    (hwithin : stop.Within codes) (hcode : stop.code? = some code) : code ∈ codes := by
  cases stop with
  | escaped fault => cases hwithin
  | failed fault =>
      obtain ⟨other, hmem, hother⟩ := hwithin
      rw [Stop.code?, hother] at hcode
      cases hcode
      exact hmem

/-- The procedure was refused with a code and left the state as it was. -/
structure Ending.Refused {σ α : Type} (ending : Ending σ α) (code : FaultCode) (state : σ) :
    Prop where
  outcome : ∃ fault, ending.outcome = .error (.failed fault) ∧ fault.code? = some code
  state_eq : ending.state = state

/-- What is made of a result has no part in a refusal. -/
theorem Ending.Refused.map {σ α β : Type} {ending : Ending σ α} {mapped : Ending σ β}
    {code : FaultCode} {state : σ} {f : α → β} (hrefused : ending.Refused code state)
    (houtcome : mapped.outcome = ending.outcome.map f) (hstate : mapped.state = ending.state) :
    mapped.Refused code state := by
  obtain ⟨fault, hfault, hcode⟩ := hrefused.outcome
  refine ⟨⟨fault, ?_, hcode⟩, hstate.trans hrefused.state_eq⟩
  rw [houtcome, hfault]
  rfl

/-- The outcome is a result, or a refusal with one of the codes that did not escape. -/
def StopsWithin {α : Type} (codes : List FaultCode) (outcome : Except Stop α) : Prop :=
  ∀ stop, outcome = .error stop → stop.Within codes

namespace StopsWithin

variable {σ α β : Type} {codes more : List FaultCode}

theorem ok (value : α) : StopsWithin codes (.ok value) :=
  fun _ hstop => nomatch hstop

theorem failed {fault : Fault} {code : FaultCode} (hcode : fault.code? = some code)
    (hmem : code ∈ codes) : StopsWithin codes (.error (.failed fault) : Except Stop α) := by
  intro stop hstop
  cases hstop
  exact ⟨code, hmem, hcode⟩

theorem mono {outcome : Except Stop α} (hwithin : StopsWithin codes outcome)
    (hsubset : codes ⊆ more) : StopsWithin more outcome :=
  fun stop hstop => (hwithin stop hstop).mono hsubset

theorem of_refused {ending : Ending σ α} {code : FaultCode} {state : σ}
    (hrefused : ending.Refused code state) (hmem : code ∈ codes) :
    StopsWithin codes ending.outcome := by
  obtain ⟨fault, houtcome, hcode⟩ := hrefused.outcome
  rw [houtcome]
  exact failed hcode hmem

/-- The second part starts in the state that the first one left, with its result. -/
theorem bind {procedure : Procedure σ α} {next : α → Procedure σ β} {state : σ}
    (hfirst : StopsWithin codes (procedure state).outcome)
    (hnext : ∀ value, (procedure state).outcome = .ok value →
      StopsWithin codes (next value (procedure state).state).outcome) :
    StopsWithin codes ((procedure >>= next) state).outcome := by
  rw [Procedure.outcome_bind]
  cases hended : (procedure state).outcome with
  | ok value => exact hnext value hended
  | error stop =>
      intro other hother
      cases hother
      exact hfirst stop hended

end StopsWithin

/-- A refusal leaves every invariant as it leaves the state. -/
theorem Ending.Refused.guarded {σ α : Type} {invariant : σ → Prop} {codes : List FaultCode}
    {ending : Ending σ α} {code : FaultCode} {state : σ} (hrefused : ending.Refused code state)
    (hinvariant : invariant state) (hmem : code ∈ codes) :
    invariant ending.state ∧ StopsWithin codes ending.outcome := by
  refine ⟨?_, .of_refused hrefused hmem⟩
  rw [hrefused.state_eq]
  exact hinvariant

namespace Procedure

variable {σ α β : Type} {invariant : σ → Prop} {codes more : List FaultCode}

@[simp] theorem orEscape_ok (value : α) :
    (orEscape (.ok value) : Procedure σ α) = pure value := rfl

@[simp] theorem ofExcept_ok (value : α) :
    (ofExcept (.ok value) : Procedure σ α) = pure value := rfl

@[simp] theorem ofExcept_error (fault : Fault) :
    (ofExcept (.error fault) : Procedure σ α) = fail fault := rfl

theorem refused_of_fail {fault : Fault} {code : FaultCode} (hcode : fault.code? = some code)
    (state : σ) : (fail fault state : Ending σ α).Refused code state where
  outcome := ⟨fault, rfl, hcode⟩
  state_eq := rfl

@[simp] theorem outcome_ofStop (value : Except Stop α) (state : σ) :
    (ofStop value state).outcome = value := by
  cases value <;> rfl

@[simp] theorem state_ofStop (value : Except Stop α) (state : σ) :
    (ofStop value state).state = state := by
  cases value <;> rfl

theorem refused_of_within {stop : Stop} (hwithin : stop.Within codes) (state : σ) :
    ∃ code ∈ codes, (Procedure.stop stop state : Ending σ α).Refused code state := by
  cases stop with
  | escaped fault => cases hwithin
  | failed fault =>
      obtain ⟨code, hmem, hcode⟩ := hwithin
      exact ⟨code, hmem, refused_of_fail hcode state⟩

theorem attempt_of_failed {procedure : Procedure σ α} {state : σ} {fault : Fault}
    (hended : (procedure state).outcome = .error (.failed fault)) :
    (procedure.attempt state).outcome = .ok (.error fault) := by
  unfold attempt
  dsimp only
  rw [hended]

/-- A procedure that does not succeed leaves the state as it was. -/
def Reverts (procedure : Procedure σ α) (state : σ) : Prop :=
  ∀ stop, (procedure state).outcome = .error stop → (procedure state).state = state

theorem reverts_of_refused {procedure : Procedure σ α} {code : FaultCode} {state : σ}
    (hrefused : (procedure state).Refused code state) : procedure.Reverts state :=
  fun _ _ => hrefused.state_eq

theorem reverts_of_ok {procedure : Procedure σ α} {value : α} {state : σ}
    (hended : (procedure state).outcome = .ok value) : procedure.Reverts state := by
  intro stop hstop
  rw [hended] at hstop
  cases hstop

/-- What comes after a refusal does not happen. -/
theorem refused_bind {procedure : Procedure σ α} {code : FaultCode} {state : σ}
    (next : α → Procedure σ β) (hrefused : (procedure state).Refused code state) :
    ((procedure >>= next) state).Refused code state := by
  obtain ⟨fault, houtcome, hcode⟩ := hrefused.outcome
  rw [bind_of_error next houtcome]
  exact ⟨⟨fault, rfl, hcode⟩, hrefused.state_eq⟩

/-- What is said to the log has no part in a refusal. -/
theorem refused_note_bind {severity : Log.Severity} {message : String} {args : List Value}
    {next : Unit → Procedure σ β} {code : FaultCode} {state : σ}
    (hrefused : (next () state).Refused code state) :
    ((note severity message args >>= next) state).Refused code state :=
  ⟨hrefused.outcome, hrefused.state_eq⟩

/-- Wherever the invariant holds, the procedure keeps it and can only be refused, with one of the
codes. -/
def Guarded (invariant : σ → Prop) (codes : List FaultCode) (procedure : Procedure σ α) : Prop :=
  ∀ state, invariant state →
    invariant (procedure state).state ∧ StopsWithin codes (procedure state).outcome

namespace Guarded

theorem pure (value : α) : Guarded invariant codes (Pure.pure value : Procedure σ α) :=
  fun _ hinvariant => ⟨hinvariant, .ok value⟩

theorem get : Guarded invariant codes (Procedure.get : Procedure σ σ) :=
  fun state hinvariant => ⟨hinvariant, .ok state⟩

/-- The state that is read satisfies the invariant. -/
theorem get_bind {next : σ → Procedure σ β}
    (hnext : ∀ current, invariant current → Guarded invariant codes (next current)) :
    Guarded invariant codes (Procedure.get >>= next) :=
  fun state hinvariant => hnext state hinvariant state hinvariant

theorem note (severity : Log.Severity) (message : String) (args : List Value) :
    Guarded invariant codes (Procedure.note severity message args : Procedure σ Unit) :=
  fun _ hinvariant => ⟨hinvariant, .ok ()⟩

theorem modify {f : σ → σ} (hkept : ∀ state, invariant state → invariant (f state)) :
    Guarded invariant codes (Procedure.modify f) :=
  fun state hinvariant => ⟨hkept state hinvariant, .ok ()⟩

theorem fail {fault : Fault} (hwithin : Stop.Within codes (.failed fault)) :
    Guarded invariant codes (Procedure.fail fault : Procedure σ α) := by
  refine fun _ hinvariant => ⟨hinvariant, ?_⟩
  intro stop hstop
  cases hstop
  exact hwithin

theorem ofStop {value : Except Stop α} (hwithin : StopsWithin codes value) :
    Guarded invariant codes (Procedure.ofStop value) := by
  intro state hinvariant
  rw [outcome_ofStop, state_ofStop]
  exact ⟨hinvariant, hwithin⟩

theorem ofExcept {value : Except Fault α}
    (hwithin : ∀ fault, value = .error fault → Stop.Within codes (.failed fault)) :
    Guarded invariant codes (Procedure.ofExcept value) := by
  cases value with
  | ok value => exact pure value
  | error fault => exact fail (hwithin fault rfl)

theorem mono {procedure : Procedure σ α} (hguarded : Guarded invariant codes procedure)
    (hsubset : codes ⊆ more) : Guarded invariant more procedure :=
  fun state hinvariant =>
    ⟨(hguarded state hinvariant).1, (hguarded state hinvariant).2.mono hsubset⟩

theorem bind {procedure : Procedure σ α} {next : α → Procedure σ β}
    (hfirst : Guarded invariant codes procedure)
    (hnext : ∀ value, Guarded invariant codes (next value)) :
    Guarded invariant codes (procedure >>= next) := by
  intro state hinvariant
  obtain ⟨hkept, hwithin⟩ := hfirst state hinvariant
  refine ⟨?_, hwithin.bind fun value _ => (hnext value _ hkept).2⟩
  rw [state_bind]
  cases (procedure state).outcome with
  | ok value => exact (hnext value _ hkept).1
  | error stop => exact hkept

/-- A procedure whose fault is caught goes on either way; the fault has one of the codes. -/
theorem attempt_bind {procedure : Procedure σ α} {next : Except Fault α → Procedure σ β}
    (hfirst : Guarded invariant codes procedure)
    (hok : ∀ value, Guarded invariant codes (next (.ok value)))
    (herror : ∀ fault, Stop.Within codes (.failed fault) →
      Guarded invariant codes (next (.error fault))) :
    Guarded invariant codes (procedure.attempt >>= next) := by
  intro state hinvariant
  obtain ⟨hkept, hwithin⟩ := hfirst state hinvariant
  rw [outcome_bind, state_bind, state_attempt]
  unfold attempt
  dsimp only
  cases hended : (procedure state).outcome with
  | ok value => exact hok value _ hkept
  | error stop =>
      -- only a fault that was returned is caught, and no other one occurs
      have hstop := hwithin stop hended
      cases stop with
      | escaped fault => cases hstop
      | failed fault => exact herror fault hstop _ hkept

end Guarded

end Procedure

end AccountRegistry
