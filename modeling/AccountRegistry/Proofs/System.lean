import AccountRegistry.Proofs.Ledger
import AccountRegistry.Proofs.Representation
import AccountRegistry.System

/-!
# Runs of a registry over the ledger in memory

A system takes its events one by one.  What is assumed about a run is a rule about each event and
the system that it meets (`Obeys`); what every event that obeys the rule keeps is kept by the run
(`run_induction`).  To the registry each event is one of its own or none at all (`step_machine`),
so that whatever holds over any ledger holds here (`Sound.ofSystem`).
-/

namespace AccountRegistry

/-! ## Informed calls -/

theorem Call.informed_eq_register {view : Int → Option DeployedAccount} {call : Call}
    {caller evm : Int} {account : Option DeployedAccount}
    (hinformed : call.informed view = .register caller evm account) :
    (∃ given, call = .register caller evm given) ∧ view caller = account := by
  cases call <;> cases hinformed
  exact ⟨⟨_, rfl⟩, rfl⟩

theorem Call.informed_eq_deployIfAbsent {view : Int → Option DeployedAccount} {call : Call}
    {plan : DeploymentPlan} (hinformed : call.informed view = .deployIfAbsent plan) :
    call = .deployIfAbsent plan := by
  cases call <;> cases hinformed
  rfl

/-- An informed call writes only the mapping of an account that was derived for its address and
that the view shows. -/
theorem Machine.Writes.of_informed {wiring : Wiring} {machine : Machine} {event : Event}
    {view : Int → Option DeployedAccount} {call : Call} {mapping : Mapping}
    (hwrites : Writes wiring machine event mapping) (hevent : event = .call (call.informed view)) :
    ∃ caller evm given account, call = .register caller evm given ∧ view caller = some account ∧
      Provisioning.derive wiring.hash wiring.identity.deployer ClassReferences.read
        machine.state.references evm = .ok caller ∧
      mapping = Addresses.registration account caller evm := by
  cases hwrites with
  | provisioned => cases hevent
  | registered hderived =>
      obtain ⟨⟨given, hcall⟩, hshown⟩ := Call.informed_eq_register (Event.call.inj hevent).symm
      exact ⟨_, _, given, _, hcall, hshown, hderived, rfl⟩

namespace System

variable {wiring : Wiring} {system : System}

/-! ## Runs -/

/-- Each event of a list obeys a rule in the system that it meets. -/
def Obeys (wiring : Wiring) (rule : System → Event → Prop) : System → List Event → Prop
  | _, [] => True
  | system, event :: rest =>
      rule system event ∧ Obeys wiring rule (system.step wiring event).system rest

/-- A rule about events alone is obeyed if each event of the list obeys it. -/
theorem obeys_of_forall {allowed : Event → Prop} {events : List Event}
    (hallowed : ∀ event ∈ events, allowed event) :
    system.Obeys wiring (fun _ event => allowed event) events := by
  induction events generalizing system with
  | nil => trivial
  | cons event rest ih =>
      obtain ⟨hevent, hrest⟩ := List.forall_mem_cons.mp hallowed
      exact ⟨hevent, ih hrest⟩

theorem Obeys.and {first second : System → Event → Prop} {events : List Event}
    (hfirst : system.Obeys wiring first events) (hsecond : system.Obeys wiring second events) :
    system.Obeys wiring (fun system event => first system event ∧ second system event) events := by
  induction events generalizing system with
  | nil => trivial
  | cons event rest ih => exact ⟨⟨hfirst.1, hsecond.1⟩, ih hfirst.2 hsecond.2⟩

/-- What every event that obeys the rule keeps is kept by every run that does. -/
theorem run_induction {rule : System → Event → Prop} {invariant : System → Prop}
    (hstep : ∀ system event, rule system event → invariant system →
      invariant (system.step wiring event).system)
    (hinitial : invariant system) {events : List Event} (hobeys : system.Obeys wiring rule events) :
    invariant (system.run wiring events) := by
  induction events generalizing system with
  | nil => exact hinitial
  | cons event rest ih =>
      obtain ⟨hrule, hrest⟩ := hobeys
      exact ih (hstep system event hrule hinitial) hrest

/-! ## One event -/

theorem step_call (wiring : Wiring) (system : System) (call : Call) :
    (system.step wiring (.call call)).system =
      ⟨(system.machine.step wiring (.call (call.informed system.ledger.find?))).machine,
        system.ledger⟩ := rfl

theorem step_reply (wiring : Wiring) (system : System) (reply : HostReply) :
    (system.step wiring (.reply reply)).system =
      ⟨(system.machine.step wiring (.reply reply)).machine, system.ledger⟩ := rfl

theorem pending?_cons {waiting : Waiting} {rest : List Waiting}
    (hwaiting : system.machine.waiting = waiting :: rest) :
    system.pending? = some waiting.plan.request := by
  rw [pending?, hwaiting]
  rfl

theorem step_deploy_nil (hwaiting : system.machine.waiting = []) :
    (system.step wiring .deploy).system = system := by
  have hpending : system.pending? = none := by
    rw [pending?, hwaiting]
    rfl
  simp only [step, hpending]

/-- The ledger takes the request of the latest waiting call, which gets its reply. -/
theorem step_deploy_cons {waiting : Waiting} {rest : List Waiting}
    (hwaiting : system.machine.waiting = waiting :: rest) :
    (system.step wiring .deploy).system =
      ⟨(system.machine.step wiring
          (.reply (system.ledger.reply wiring.hash waiting.plan.request))).machine,
        system.ledger.deploy wiring.hash waiting.plan.request⟩ := by
  simp only [step, pending?_cons hwaiting]
  rfl

theorem step_deploy_effect {waiting : Waiting} {rest : List Waiting}
    (hwaiting : system.machine.waiting = waiting :: rest) :
    (system.step wiring .deploy).effect =
      (system.machine.step wiring
        (.reply (system.ledger.reply wiring.hash waiting.plan.request))).effect := by
  simp only [step, pending?_cons hwaiting]
  rfl

/-- To the registry an event of the system is one of its own, or none. -/
theorem step_machine (wiring : Wiring) (system : System) (event : Event) :
    (system.step wiring event).system.machine = system.machine ∨
      ∃ taken, (system.step wiring event).system.machine =
        (system.machine.step wiring taken).machine := by
  cases event with
  | call call => exact .inr ⟨_, rfl⟩
  | reply reply => exact .inr ⟨_, rfl⟩
  | request request => exact .inl rfl
  | reject rejection => exact .inl rfl
  | deploy =>
      -- with nobody waiting the ledger is not even asked
      cases hwaiting : system.machine.waiting with
      | nil => exact .inl (by rw [step_deploy_nil hwaiting])
      | cons waiting rest => exact .inr ⟨_, by rw [step_deploy_cons hwaiting]⟩

/-- To the registry a run of the system is a run over some ledger. -/
theorem run_machine (wiring : Wiring) (system : System) (events : List Event) :
    ∃ taken, (system.run wiring events).machine = system.machine.run wiring taken := by
  induction events generalizing system with
  | nil => exact ⟨[], rfl⟩
  | cons event rest ih =>
      obtain ⟨taken, hrest⟩ := ih (system.step wiring event).system
      rcases step_machine wiring system event with hkept | ⟨first, hfirst⟩
      · rw [hkept] at hrest
        exact ⟨taken, hrest⟩
      · rw [hfirst] at hrest
        exact ⟨first :: taken, hrest⟩

/-- The registry of a system stays sound. -/
theorem sound_step (hstandard : wiring.Standard) (hsound : system.machine.Sound wiring)
    (event : Event) : (system.step wiring event).system.machine.Sound wiring := by
  rcases step_machine wiring system event with hkept | ⟨taken, htaken⟩
  · rw [hkept]
    exact hsound
  · rw [htaken]
    exact hsound.step hstandard taken

end System

end AccountRegistry
