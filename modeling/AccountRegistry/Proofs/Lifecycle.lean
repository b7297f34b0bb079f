import AccountRegistry.Lifecycle.Trial
import AccountRegistry.Proofs.Procedure
import Mathlib.Data.List.Basic

/-!
# The order of services

Services are registered by name, and of a name the first one counts.  What they are called for when
all of them are initialized, started or stopped is seen in a record that their transitions keep
(`Service.recorded`); the record makes no other difference.

* `registerAll_eq`: the registered services are the first of each name.
* `runInOrder_recorded`: services are called in their order up to the first that fails.
* `stopAll_recorded`: services are stopped in the reverse order, all of them.
* `services_are_driven_in_order`: all of it, for what was offered and in any state.
-/

namespace AccountRegistry.Lifecycle

open Procedure Trial

variable {σ : Type}

/-! ## Registering -/

/-- The registered services after others were offered one after the other.  One that is refused
leaves them as they are. -/
def registerFrom (services offered : List (Service σ)) : List (Service σ) :=
  offered.foldl (fun services service => (register services service).toOption.getD services)
    services

/-- The services that are registered of those that were offered. -/
def registerAll (offered : List (Service σ)) : List (Service σ) :=
  registerFrom [] offered

/-- Two services have one name. -/
def sameName (service other : Service σ) : Bool :=
  other.name = service.name

theorem register_of_present {services : List (Service σ)} {service : Service σ}
    (hpresent : service.name ∈ services.map Service.name) :
    register services service =
      .error (.plain ("Service with name '" ++ service.name ++ "' is already registered")) := by
  refine if_pos ?_
  obtain ⟨other, hother, hname⟩ := List.mem_map.mp hpresent
  exact List.any_eq_true.mpr ⟨other, hother, decide_eq_true hname⟩

theorem register_of_absent {services : List (Service σ)} {service : Service σ}
    (habsent : service.name ∉ services.map Service.name) :
    register services service = .ok (services ++ [service]) := by
  refine if_neg fun hany => habsent ?_
  obtain ⟨other, hother, hname⟩ := List.any_eq_true.mp hany
  exact List.mem_map.mpr ⟨other, hother, of_decide_eq_true hname⟩

/-- What is offered is registered or refused, by its name alone. -/
theorem registerFrom_cons (services : List (Service σ)) (service : Service σ)
    (rest : List (Service σ)) :
    registerFrom services (service :: rest) =
      if service.name ∈ services.map Service.name then registerFrom services rest
      else registerFrom (services ++ [service]) rest := by
  show registerFrom ((register services service).toOption.getD services) rest = _
  split
  · rename_i hpresent
    rw [register_of_present hpresent]
    rfl
  · rename_i habsent
    rw [register_of_absent habsent]
    rfl

theorem registerAll_concat (offered : List (Service σ)) (service : Service σ) :
    registerAll (offered ++ [service]) =
      if service.name ∈ (registerAll offered).map Service.name then registerAll offered
      else registerAll offered ++ [service] := by
  have hlast : registerAll (offered ++ [service]) =
      registerFrom (registerAll offered) [service] := List.foldl_append
  rw [hlast, registerFrom_cons]
  rfl

/-- The registered services are the first of each name. -/
theorem registerAll_eq (offered : List (Service σ)) :
    registerAll offered = offered.eraseDupsBy sameName := by
  -- the loop of the library collects in front, so it has the services in the reverse order
  have hloop (services : List (Service σ)) :
      registerFrom services offered = List.eraseDupsBy.loop sameName offered services.reverse := by
    induction offered generalizing services with
    | nil => rw [List.eraseDupsBy.loop, List.reverse_reverse]; rfl
    | cons service rest ih =>
        have hany : services.reverse.any (sameName service) =
            decide (service.name ∈ services.map Service.name) := by
          rw [List.any_reverse, Bool.eq_iff_iff, List.any_eq_true, decide_eq_true_eq, List.mem_map]
          simp only [sameName, decide_eq_true_eq]
        rw [registerFrom_cons, List.eraseDupsBy.loop, hany]
        split
        · rename_i hpresent
          rw [decide_eq_true hpresent]
          exact ih services
        · rename_i habsent
          rw [decide_eq_false habsent, ih, List.reverse_concat]
  exact hloop []

/-- The registered service of a name is the first that was offered under it. -/
theorem get?_registerAll (offered : List (Service σ)) (name : String) :
    get? (registerAll offered) name = offered.find? fun service => service.name = name := by
  -- what is registered already comes before whatever is offered
  have hfrom (services : List (Service σ)) : get? (registerFrom services offered) name =
      (get? services name).or (offered.find? fun service => service.name = name) := by
    induction offered generalizing services with
    | nil => exact (Option.or_none).symm
    | cons service rest ih =>
        rw [registerFrom_cons, List.find?_cons]
        split
        · rename_i hpresent
          rw [ih]
          by_cases hname : service.name = name
          · -- the name is taken already
            have htaken : (get? services name).isSome := by
              obtain ⟨other, hother, hsame⟩ := List.mem_map.mp hpresent
              rw [get?, List.find?_isSome]
              exact ⟨other, hother, decide_eq_true (hsame.trans hname)⟩
            obtain ⟨found, hfound⟩ := Option.isSome_iff_exists.mp htaken
            rw [hfound, Option.some_or, Option.some_or]
          · rw [decide_eq_false hname]
        · rw [ih, get?, get?, List.find?_append, Option.or_assoc]
          by_cases hname : service.name = name
          · simp [hname]
          · simp [hname]
  exact hfrom []

/-! ## Driving -/

/-- The transition of a service in a phase. -/
def Service.transition (service : Service σ) : Phase → Procedure σ Unit
  | .init => service.init
  | .start => service.start
  | .stop => service.stop

/-- What all services are driven through in a phase. -/
def drive : Phase → List (Service σ) → Procedure σ Unit
  | .init => initAll
  | .start => startAll
  | .stop => stopAll

/-- The faults that a service meets in a phase are returned, as its interface has it, and none
escapes. -/
def Service.Returns (service : Service σ) (phase : Phase) : Prop :=
  ∀ state fault, (service.transition phase state).outcome ≠ .error (.escaped fault)

section Running

variable {transition : Service σ → Procedure σ Unit} {complaint : String} {service : Service σ}
  {state : σ} {stop : Stop} {fault : Fault}

/-- What is said about a service that ended the run. -/
def said (complaint name : String) : Stop → List Log.Entry
  | .failed fault =>
      [⟨.error, .text complaint, [.fault fault, .record [("name", .text name)]]⟩]
  | .escaped _ => []

/-- The fault that a service returned, if it returned one. -/
def returned : Except Stop Unit → List Fault
  | .error (.failed fault) => [fault]
  | _ => []

theorem runInOrder_of_ok (hended : (transition service state).outcome = .ok ())
    (rest : List (Service σ)) :
    runInOrder transition complaint (service :: rest) state =
      let first := transition service state
      let next := runInOrder transition complaint rest first.state
      ⟨next.outcome, next.state, first.log ++ next.log⟩ := by
  show andThen (transition service).attempt _ state = _
  unfold andThen attempt
  simp only [hended]

theorem runInOrder_of_error (hended : (transition service state).outcome = .error stop)
    (rest : List (Service σ)) :
    runInOrder transition complaint (service :: rest) state =
      let first := transition service state
      ⟨.error stop, first.state, first.log ++ said complaint service.name stop⟩ := by
  show andThen (transition service).attempt _ state = _
  unfold andThen attempt
  cases stop with
  | failed fault =>
      simp only [hended]
      rfl
  | escaped fault => simp only [hended, said, List.append_nil]

theorem stopEach_of_returned
    (hreturned : ∀ fault, (service.stop state).outcome ≠ .error (.escaped fault))
    (rest : List (Service σ)) :
    stopEach (service :: rest) state =
      let first := service.stop state
      let next := stopEach rest first.state
      ⟨next.outcome.map (returned first.outcome ++ ·), next.state, first.log ++ next.log⟩ := by
  show andThen service.stop.attempt (fun _ => andThen _ _) state = _
  unfold andThen attempt
  cases hended : (service.stop state).outcome with
  | ok =>
      simp only [hended]
      cases (stopEach rest (service.stop state).state).outcome <;>
        simp [Pure.pure, Except.map, returned]
  | error stop =>
      cases stop with
      | failed fault =>
          simp only [hended]
          cases (stopEach rest (service.stop state).state).outcome <;>
            simp [Pure.pure, Except.map, returned]
      | escaped fault => exact absurd hended (hreturned fault)

theorem stopEach_of_escaped (hended : (service.stop state).outcome = .error (.escaped fault))
    (rest : List (Service σ)) :
    stopEach (service :: rest) state =
      let first := service.stop state
      ⟨.error (.escaped fault), first.state, first.log⟩ := by
  show andThen service.stop.attempt (fun _ => andThen _ _) state = _
  unfold andThen attempt
  simp only [hended]

theorem noteEach_run (message : String) (faults : List Fault) (state : σ) :
    noteEach message faults state =
      ⟨.ok (), state, faults.map fun fault => ⟨.error, .text message, [.fault fault]⟩⟩ := by
  induction faults with
  | nil => rfl
  | cons fault rest ih =>
      show andThen (note .error message [.fault fault]) (fun _ => noteEach message rest) state = _
      unfold andThen note
      simp only [ih]
      rfl

end Running

/-! ## Recording -/

/-- A call of a service, and how it ended. -/
structure Record where
  phase : Phase
  name : String
  outcome : Except Stop Unit

/-- An ending together with a record. -/
def withRecord {α : Type} (ending : Ending σ α) (record : List Record) :
    Ending (σ × List Record) α :=
  ⟨ending.outcome, (ending.state, record), ending.log⟩

/-- The service with a record of its calls, the latest last. -/
def Service.recorded (service : Service σ) : Service (σ × List Record) :=
  let recording (phase : Phase) : Procedure (σ × List Record) Unit := fun state =>
    let ending := service.transition phase state.1
    withRecord ending (state.2 ++ [⟨phase, service.name, ending.outcome⟩])
  { name := service.name
    init := recording .init
    start := recording .start
    stop := recording .stop
    initialized := fun state => service.initialized state.1
    running := fun state => service.running state.1 }

theorem transition_recorded (service : Service σ) (phase : Phase) (state : σ)
    (record : List Record) :
    service.recorded.transition phase (state, record) =
      withRecord (service.transition phase state)
        (record ++ [⟨phase, service.name, (service.transition phase state).outcome⟩]) := by
  cases phase <;> rfl

/-- Services are called in their order, up to the first that fails, if one does.  The first failure
is the outcome. -/
inductive CalledInOrder (phase : Phase) :
    List (Service σ) → List Record → Except Stop Unit → Prop
  | all (services : List (Service σ)) :
      CalledInOrder phase services (services.map fun service => ⟨phase, service.name, .ok ()⟩)
        (.ok ())
  | upTo (before : List (Service σ)) (failing : Service σ) (after : List (Service σ))
      (stop : Stop) :
      CalledInOrder phase (before ++ failing :: after)
        ((before.map fun service => ⟨phase, service.name, .ok ()⟩) ++
          [⟨phase, failing.name, .error stop⟩]) (.error stop)

theorem CalledInOrder.cons {phase : Phase} {services : List (Service σ)} {made : List Record}
    {outcome : Except Stop Unit} (hcalled : CalledInOrder phase services made outcome)
    (service : Service σ) :
    CalledInOrder phase (service :: services) (⟨phase, service.name, .ok ()⟩ :: made) outcome := by
  cases hcalled with
  | all => exact .all (service :: services)
  | upTo before failing after stop => exact .upTo (service :: before) failing after stop

/-- Services that are called in their order are called up to the first that fails. -/
theorem runInOrder_recorded (phase : Phase) (complaint : String) (services : List (Service σ))
    (state : σ) (record : List Record) :
    let run := runInOrder (fun service => service.transition phase) complaint services state
    ∃ made, runInOrder (fun service => service.transition phase) complaint
        (services.map Service.recorded) (state, record) = withRecord run (record ++ made) ∧
      CalledInOrder phase services made run.outcome := by
  -- each call changes the state and the record for the calls after it
  induction services generalizing state record with
  | nil => exact ⟨[], by rw [List.append_nil]; rfl, .all []⟩
  | cons service rest ih =>
      have hhere := transition_recorded service phase state record
      cases hended : (service.transition phase state).outcome with
      | ok =>
          obtain ⟨made, hrest, hcalled⟩ := ih (service.transition phase state).state
            (record ++ [⟨phase, service.name, .ok ()⟩])
          have hrecorded : (service.recorded.transition phase (state, record)).outcome =
              .ok () := by
            rw [hhere]
            exact hended
          rw [runInOrder_of_ok hended, List.map_cons, runInOrder_of_ok hrecorded, hhere]
          refine ⟨⟨phase, service.name, .ok ()⟩ :: made, ?_, hcalled.cons service⟩
          simp only [withRecord, hended] at hrest ⊢
          rw [hrest, List.append_assoc]
          rfl
      | error stop =>
          have hrecorded : (service.recorded.transition phase (state, record)).outcome =
              .error stop := by
            rw [hhere]
            exact hended
          rw [runInOrder_of_error hended, List.map_cons, runInOrder_of_error hrecorded, hhere]
          refine ⟨[⟨phase, service.name, .error stop⟩], ?_, .upTo [] service rest stop⟩
          simp only [withRecord, hended]
          rfl

/-- The first of some outcomes that is not a success, or success if all of them are. -/
def firstFailure : List (Except Stop Unit) → Except Stop Unit
  | [] => .ok ()
  | .ok () :: rest => firstFailure rest
  | .error stop :: _ => .error stop

/-- All services are called, from the last to the first.  The first failure among the calls, which
is that of the last service that fails, is the outcome. -/
structure CalledInReverse (services : List (Service σ)) (made : List Record)
    (outcome : Except Stop Unit) : Prop where
  calls : (made.map fun call => (call.phase, call.name)) =
    services.reverse.map fun service => (Phase.stop, service.name)
  outcome_eq : outcome = firstFailure (made.map Record.outcome)

/-- What stopping comes to when it has met some faults. -/
def concluded : List Fault → Except Stop Unit
  | [] => .ok ()
  | fault :: _ => .error (.failed fault)

/-- A fault that is returned comes before those of the calls after it. -/
theorem firstFailure_cons {outcome : Except Stop Unit} {rest : List (Except Stop Unit)}
    {faults : List Fault} (hreturned : ∀ fault, outcome ≠ .error (.escaped fault))
    (hrest : firstFailure rest = concluded faults) :
    firstFailure (outcome :: rest) = concluded (returned outcome ++ faults) := by
  cases outcome with
  | ok => exact hrest
  | error stop =>
      cases stop with
      | failed fault => rfl
      | escaped fault => exact absurd rfl (hreturned fault)

/-- Services that return their faults are all stopped, and the faults are kept. -/
theorem stopEach_recorded (services : List (Service σ)) (state : σ) (record : List Record) :
    let run := stopEach services state
    ∃ made, stopEach (services.map Service.recorded) (state, record) =
        withRecord run (record ++ made) ∧
      ((∀ service ∈ services, service.Returns .stop) →
        ((made.map fun call => (call.phase, call.name)) =
          services.map fun service => (Phase.stop, service.name)) ∧
        ∃ faults, run.outcome = .ok faults ∧
          firstFailure (made.map Record.outcome) = concluded faults) := by
  induction services generalizing state record with
  | nil => exact ⟨[], by rw [List.append_nil]; rfl, fun _ => ⟨rfl, [], rfl, rfl⟩⟩
  | cons service rest ih =>
      let call : Record := ⟨.stop, service.name, (service.stop state).outcome⟩
      have hhere : service.recorded.stop (state, record) =
          withRecord (service.stop state) (record ++ [call]) := rfl
      have hsame : (service.recorded.stop (state, record)).outcome =
          (service.stop state).outcome := rfl
      by_cases hescaped : ∃ fault, (service.stop state).outcome = .error (.escaped fault)
      · -- the fault ends the run, and the service does not return it
        obtain ⟨fault, hended⟩ := hescaped
        rw [stopEach_of_escaped hended, List.map_cons, stopEach_of_escaped (hsame.trans hended),
          hhere]
        refine ⟨[call], ?_, fun hall => ?_⟩
        · rw [withRecord, withRecord]
        · exact absurd hended (hall service List.mem_cons_self state fault)
      · -- the others are stopped whatever it returned
        have hreturned := not_exists.mp hescaped
        obtain ⟨made, hrest, hreturns⟩ := ih (service.stop state).state (record ++ [call])
        rw [stopEach_of_returned hreturned, List.map_cons,
          stopEach_of_returned (hsame ▸ hreturned), hhere]
        refine ⟨call :: made, ?_, fun hall => ?_⟩
        · simp only [withRecord] at hrest ⊢
          rw [hrest, List.append_assoc]
          rfl
        · obtain ⟨hcalls, faults, hfaults, hfirst⟩ :=
            hreturns fun other hother => hall other (List.mem_cons_of_mem _ hother)
          refine ⟨congrArg _ hcalls, _, ?_, firstFailure_cons hreturned hfirst⟩
          dsimp only
          rw [hfaults]
          rfl

/-- Services that return their faults are all stopped, the last registered first. -/
theorem stopAll_recorded (services : List (Service σ)) (state : σ) (record : List Record) :
    let run := stopAll services state
    ∃ made, stopAll (services.map Service.recorded) (state, record) =
        withRecord run (record ++ made) ∧
      ((∀ service ∈ services, service.Returns .stop) →
        CalledInReverse services made run.outcome) := by
  obtain ⟨made, hrun, hreturns⟩ := stopEach_recorded services.reverse state record
  have hstop {τ : Type} (services : List (Service τ)) (state : τ) :
      stopAll services state =
        andThen (stopEach services.reverse) (fun faults =>
          andThen (noteEach "Error stopping service" faults) fun _ =>
            match faults with
            | [] => pure ()
            | fault :: _ => Procedure.fail fault) state := rfl
  -- saying the faults changes neither the state nor the record
  dsimp only
  rw [hstop, hstop, ← List.map_reverse]
  unfold andThen
  simp only [hrun, noteEach_run, withRecord]
  cases hended : (stopEach services.reverse state).outcome with
  | error stop =>
      refine ⟨made, rfl, fun hall => ?_⟩
      obtain ⟨-, faults, hfaults, -⟩ := hreturns fun service hservice =>
        hall service (List.mem_reverse.mp hservice)
      cases hended.symm.trans hfaults
  | ok faults =>
      refine ⟨made, ?_, fun hall => ?_⟩
      · cases faults <;> rfl
      · obtain ⟨hcalls, kept, hkept, hfirst⟩ := hreturns fun service hservice =>
          hall service (List.mem_reverse.mp hservice)
        cases hended.symm.trans hkept
        refine ⟨hcalls, ?_⟩
        rw [hfirst]
        cases faults <;> rfl

/-- A subject that does not throw returns its faults. -/
theorem Trial.Subject.returns {subject : Subject} (hquiet : subject.throws = false) (place : Nat)
    (phase : Phase) : (subject.service place).Returns phase := by
  intro traces fault hescaped
  have htransition : (subject.service place).transition phase = subject.transition place phase := by
    cases phase <;> rfl
  rw [htransition, Subject.transition, Subject.fail, hquiet] at hescaped
  by_cases hrecorded : subject.recorded
  · by_cases hfails : phase ∈ subject.fails
    · by_cases hstop : phase = .stop
      · subst hstop
        simp [hrecorded, hfails] at hescaped
      · simp [hrecorded, hfails, hstop] at hescaped
    · simp [hrecorded, hfails, Procedure.modify] at hescaped
  · simp [hrecorded, Procedure.modify] at hescaped

/-! ## The law of the services -/

/-- Of the services that are offered under a name the first one is registered, and every other one
is refused and changes nothing.  In every state, and so whatever was called before, the registered
services are initialized and started in their order up to the first that fails, whose fault is
returned; they are stopped in the reverse order, each of them once, and the fault of the last
registered one that fails is returned. -/
theorem services_are_driven_in_order (offered : List (Service σ)) :
    let services := registerAll offered
    (∀ service, if service.name ∈ services.map Service.name then
        register services service =
            .error (.plain ("Service with name '" ++ service.name ++ "' is already registered")) ∧
          registerAll (offered ++ [service]) = services
      else register services service = .ok (services ++ [service]) ∧
        registerAll (offered ++ [service]) = services ++ [service]) ∧
      services = offered.eraseDupsBy sameName ∧
      (∀ name, get? services name = offered.find? fun service => service.name = name) ∧
      ∀ (state : σ) (record : List Record),
        (∀ phase, phase ≠ .stop → ∃ made,
          drive phase (services.map Service.recorded) (state, record) =
              withRecord (drive phase services state) (record ++ made) ∧
            CalledInOrder phase services made (drive phase services state).outcome) ∧
        ∃ made,
          drive .stop (services.map Service.recorded) (state, record) =
              withRecord (drive .stop services state) (record ++ made) ∧
            ((∀ service ∈ services, service.Returns .stop) →
              CalledInReverse services made (drive .stop services state).outcome) := by
  intro services
  refine ⟨fun service => ?_, registerAll_eq offered, get?_registerAll offered, fun state record =>
    ⟨fun phase hphase => ?_, stopAll_recorded services state record⟩⟩
  · rw [registerAll_concat]
    by_cases hpresent : service.name ∈ services.map Service.name
    · rw [if_pos hpresent, if_pos hpresent]
      exact ⟨register_of_present hpresent, rfl⟩
    · rw [if_neg hpresent, if_neg hpresent]
      exact ⟨register_of_absent hpresent, rfl⟩
  · cases phase with
    | init => exact runInOrder_recorded .init "Error initializing service" services state record
    | start => exact runInOrder_recorded .start "Error starting service" services state record
    | stop => exact absurd rfl hphase

/-- Of four services one has a name that is taken, one fails to start and two fail to stop: the
third one is not started, all three are stopped, and the fault of the third is returned. -/
theorem services_are_driven_in_order_past_failures :
    let subjects : List Subject := [⟨"chain", [.stop], false, true⟩,
      ⟨"token", [.start], false, true⟩, ⟨"chain", [], false, true⟩,
      ⟨"owner", [.stop], false, true⟩]
    let services := registerAll (subjects.zipIdx.map fun entry => entry.1.service entry.2)
    services.map Service.name = ["chain", "token", "owner"] ∧
      ∀ traces : Traces,
        (drive .start services traces).outcome = .error (.failed (.plain "token start failed")) ∧
        (∃ made, drive .start (services.map Service.recorded) (traces, []) =
            withRecord (drive .start services traces) made ∧
          made.map Record.name = ["chain", "token"]) ∧
        (drive .stop services traces).outcome = .error (.failed (.plain "owner stop failed")) ∧
        ∃ made, drive .stop (services.map Service.recorded) (traces, []) =
            withRecord (drive .stop services traces) made ∧
          made.map Record.name = ["owner", "token", "chain"] := by
  intro subjects services
  obtain ⟨-, -, -, hdriven⟩ :=
    services_are_driven_in_order (subjects.zipIdx.map fun entry => entry.1.service entry.2)
  refine ⟨rfl, fun traces => ?_⟩
  obtain ⟨hinOrder, made, hstopped, hreverse⟩ := hdriven traces []
  obtain ⟨started, hstarted, -⟩ := hinOrder .start (by decide)
  have hreturns : ∀ service ∈ services, service.Returns .stop := by
    have hservices : services = [(⟨"chain", [.stop], false, true⟩ : Subject).service 0,
        (⟨"token", [.start], false, true⟩ : Subject).service 1,
        (⟨"owner", [.stop], false, true⟩ : Subject).service 3] := rfl
    rw [hservices]
    simp only [List.forall_mem_cons, List.not_mem_nil, false_implies, implies_true, and_true]
    exact ⟨Subject.returns rfl 0 .stop, Subject.returns rfl 1 .stop, Subject.returns rfl 3 .stop⟩
  have hnames : started.map Record.name = ["chain", "token"] :=
    (congrArg (fun ending => ending.state.2.map Record.name) hstarted).symm
  have hcalls := congrArg (List.map Prod.snd) (hreverse hreturns).calls
  rw [List.map_map] at hcalls
  exact ⟨rfl, ⟨started, hstarted, hnames⟩, rfl, made, hstopped, hcalls⟩

end AccountRegistry.Lifecycle
