import AccountRegistry.Proofs.FailedCalls
import AccountRegistry.Proofs.Kinds
import AccountRegistry.Proofs.Resolution

/-!
# Calls that the ledger in memory completes

A call is completed before the next one by the ledger in memory, if it asks for anything.  To the
registry this is a call with a reply of some ledger (`complete_machine`), and what events keep it
keeps (`complete_induction`).

What a provisioning comes to is said by equations for its effect and for the whole system
afterwards.  What the call does before it asks decides:

* `complete_of_finished`, `complete_of_stopped`: it ends without a request, and nothing changes;
* `complete_of_rejected`, `complete_of_thrown`: the ledger says no, and has seen one more request;
* `complete_of_admitted`: the ledger deploys the account or holds one already, and the mapping is
  written.
-/

namespace AccountRegistry

open Procedure

/-- A provisioning takes nothing from the view of the accounts. -/
theorem Call.informed_of_provisions? {call : Call} {evm : Int}
    (hprovisions : call.provisions? = some evm) (view : Int → Option DeployedAccount) :
    call.informed view = call := by
  cases call <;> first | rfl | cases hprovisions

/-! ## Replies -/

namespace Ledger

variable {hash : Hash} {ledger : Ledger} {request : DeployRequest}

theorem reply_of_rejected {reason : String} (hrejected : ledger.rejection request = some reason) :
    ledger.reply hash request = .refused (rejected request reason) := by
  simp only [reply, hrejected]

theorem deploy_of_rejected {reason : String} (hrejected : ledger.rejection request = some reason) :
    ledger.deploy hash request = ledger.counted := by
  simp only [deploy, reply_of_rejected hrejected, counted]

/-- A plan of a registry whose request the rule lets pass is confirmed. -/
theorem confirms_of_admitted {deployer : Int} {plan : DeploymentPlan}
    (hderived : plan.Derived hash deployer) (hadmitted : ledger.rejection plan.request = none) :
    (ledger.reply hash plan.request).Confirms plan := by
  obtain ⟨text, htext⟩ := hderived.native_isNative.formatNative
  have haddress := address_of_derived hderived
  by_cases hfree : ledger.find? plan.nativeAddress = none
  · rw [reply_eq_deployed.mpr ⟨hadmitted, haddress, hfree⟩]
    rfl
  · have hoccupied : occupied plan.nativeAddress =
        .ok (.refusal .alreadyDeployed [("address", .text text)]) := by
      rw [occupied, htext]
      rfl
    simp only [reply, hadmitted, haddress, Option.isSome_iff_ne_none.mpr hfree, if_true, hoccupied]
    rfl

/-- A plan of a registry whose request the rule lets pass is deployed where nothing lives yet. -/
theorem deploy_of_admitted {deployer : Int} {plan : DeploymentPlan}
    (hderived : plan.Derived hash deployer) (hadmitted : ledger.rejection plan.request = none) :
    ledger.deploy hash plan.request =
      if ledger.find? plan.nativeAddress = none then
        { ledger with
          accounts := account plan.request plan.nativeAddress :: ledger.accounts
          requests := ledger.requests + 1 }
      else ledger.counted := by
  by_cases hfree : ledger.find? plan.nativeAddress = none
  · have hreply : ledger.reply hash plan.request = .deployed plan.nativeAddress :=
      reply_eq_deployed.mpr ⟨hadmitted, address_of_derived hderived, hfree⟩
    rw [if_pos hfree, deploy, hreply]
  · rw [if_neg hfree, deploy]
    split
    · rename_i place hreply
      obtain ⟨-, haddress, hplace⟩ := reply_eq_deployed.mp hreply
      rw [address_of_derived hderived] at haddress
      cases haddress
      exact absurd hplace hfree
    · rfl

end Ledger

/-- A plan whose request the ledger rejects ends with the reason. -/
theorem Addresses.finish_of_rejected {hash : Hash} {deployer : Int} {plan : DeploymentPlan}
    (hderived : plan.Derived hash deployer) (reason : String) (state : State) :
    (finish hash (.standard hash deployer) plan
        (.refused (Ledger.rejected plan.request reason)) state).outcome =
      .error (.failed (Ledger.rejected plan.request reason)) := by
  obtain ⟨evmText, hevmText⟩ := hderived.evm.formatEvm hash
  have hstopped : (Provisioning.conclude hash plan
      (.refused (Ledger.rejected plan.request reason)) state).outcome =
      .error (.failed (Ledger.rejected plan.request reason)) := rfl
  unfold finish
  dsimp only [Provisioner.standard]
  rw [outcome_bind, state_attempt, Provisioning.conclude_state]
  unfold attempt
  dsimp only
  rw [hstopped]
  dsimp only
  rw [hevmText]
  rfl

/-! ## Completed calls -/

theorem Machine.complete_run (wiring : Wiring) (machine : Machine) (call : Call)
    (reply : HostReply) :
    ∃ events, (machine.complete wiring call reply).machine = machine.run wiring events := by
  unfold complete
  dsimp only
  split
  · exact ⟨[.call call, .reply reply], rfl⟩
  · exact ⟨[.call call], rfl⟩

namespace System

variable {wiring : Wiring} {system : System} {call : Call} {evm : Int}

/-- A call is completed at once, by the ledger, or by a rule that throws. -/
theorem complete_cases (wiring : Wiring) (system : System) (call : Call) (thrown : Option Fault) :
    (∃ outcome, (system.step wiring (.call call)).effect =
        .ended (call.informed system.ledger.find?) outcome ∧
      system.complete wiring call thrown = system.step wiring (.call call)) ∨
    ∃ plan, (system.step wiring (.call call)).effect =
        .asked (call.informed system.ledger.find?) plan ∧
      let asked := (system.step wiring (.call call)).system
      (system.complete wiring call thrown = asked.step wiring .deploy ∨
        ∃ fault, system.complete wiring call thrown =
          System.step wiring ⟨asked.machine, asked.ledger.counted⟩ (.reply (.threw fault))) := by
  rcases Machine.step_call_effect wiring system.machine (call.informed system.ledger.find?) with
    ⟨outcome, hended⟩ | ⟨plan, hasked⟩
  · exact .inl ⟨outcome, hended, complete_of_ended hended thrown⟩
  · have heffect : (system.step wiring (.call call)).effect = _ := hasked
    refine .inr ⟨plan, hasked, ?_⟩
    cases thrown with
    | none => exact .inl (by simp only [complete, heffect])
    | some fault => exact .inr ⟨fault, by simp only [complete, heffect]⟩

/-- To the registry a completed call is one that a ledger has replied to at once. -/
theorem complete_machine (hstandard : wiring.Standard) (system : System) (call : Call)
    (thrown : Option Fault) :
    ∃ reply, (system.complete wiring call thrown).system.machine =
      (system.machine.complete wiring (call.informed system.ledger.find?) reply).machine := by
  rcases complete_cases wiring system call thrown with ⟨outcome, hended, hcomplete⟩ |
    ⟨plan, hasked, hcomplete⟩
  · refine ⟨.threw default, ?_⟩
    rw [hcomplete, Machine.complete_of_ended hended]
    rfl
  · obtain ⟨-, -, hjoined⟩ := Machine.step_asked hstandard hasked
    rcases hcomplete with hdeployed | ⟨fault, hthrown⟩
    · have hwaiting : (system.step wiring (.call call)).system.machine.waiting = _ :=
        congrArg Machine.waiting hjoined
      refine ⟨system.ledger.reply wiring.hash plan.request, ?_⟩
      rw [hdeployed, step_deploy_cons hwaiting, Machine.complete_of_asked hasked]
      rfl
    · refine ⟨.threw fault, ?_⟩
      rw [hthrown, Machine.complete_of_asked hasked]
      rfl

/-- What genuine events keep, and a throwing rule, is kept by a completed call. -/
theorem complete_induction (invariant : System → Prop)
    (hstep : ∀ system event, event.Genuine → invariant system →
      invariant (system.step wiring event).system)
    (hcounted : ∀ system : System, invariant system →
      invariant ⟨system.machine, system.ledger.counted⟩)
    (hinitial : invariant system) (call : Call) (thrown : Option Fault) :
    invariant (system.complete wiring call thrown).system := by
  have hcalled := hstep system (.call call) trivial hinitial
  rcases complete_cases wiring system call thrown with ⟨-, -, hcomplete⟩ | ⟨-, -, hcomplete⟩
  · rw [hcomplete]
    exact hcalled
  · rcases hcomplete with hdeployed | ⟨fault, hthrown⟩
    · rw [hdeployed]
      exact hstep _ .deploy trivial hcalled
    · rw [hthrown]
      exact hstep _ (.reply (.threw fault)) ⟨fault, rfl⟩ (hcounted _ hcalled)

/-- An account of the ledger stays as it is through a completed call. -/
theorem find?_complete {place : Int} {account : DeployedAccount}
    (hfound : system.ledger.find? place = some account) (call : Call) (thrown : Option Fault) :
    (system.complete wiring call thrown).system.ledger.find? place = some account :=
  complete_induction (fun system => system.ledger.find? place = some account)
    (fun _ event _ hfound => find?_step hfound event) (fun _ hfound => hfound) hfound call thrown

/-! ## Provisionings -/

/-- To a provisioning the accounts of the ledger make no difference. -/
theorem step_provisioning (hprovisions : call.provisions? = some evm) :
    system.step wiring (.call call) = system.onMachine wiring (.call call) := by
  simp only [step, System.call, Call.informed_of_provisions? hprovisions]

/-- A provisioning that ends before it asks has changed nothing. -/
theorem complete_of_finished (hprovisions : call.provisions? = some evm) {answer : Answer}
    (hbegun : (Registry.begin wiring call system.machine.state).outcome = .ok (.finished answer))
    (thrown : Option Fault) :
    (system.complete wiring call thrown).effect = .ended call (.ok answer) ∧
      (system.complete wiring call thrown).system = system := by
  have hkept : (Registry.begin wiring call system.machine.state).state = system.machine.state :=
    Registry.begin_provisions_state hprovisions
  simp only [complete, step_provisioning hprovisions, onMachine, Machine.step, hbegun, hkept,
    and_self]

theorem complete_of_stopped (hprovisions : call.provisions? = some evm) {stop : Stop}
    (hbegun : (Registry.begin wiring call system.machine.state).outcome = .error stop)
    (thrown : Option Fault) :
    (system.complete wiring call thrown).effect = .ended call (.error stop) ∧
      (system.complete wiring call thrown).system = system := by
  have hkept : (Registry.begin wiring call system.machine.state).state = system.machine.state :=
    Registry.begin_provisions_state hprovisions
  simp only [complete, step_provisioning hprovisions, onMachine, Machine.step, hbegun, hkept,
    and_self]

/-- The system in the middle of a provisioning. -/
theorem step_of_asks (hprovisions : call.provisions? = some evm) {plan : DeploymentPlan}
    (hbegun : (Registry.begin wiring call system.machine.state).outcome = .ok (.asks plan)) :
    (system.step wiring (.call call)).effect = .asked call plan ∧
      (system.step wiring (.call call)).system =
        ⟨⟨system.machine.state, ⟨call, plan⟩ :: system.machine.waiting⟩, system.ledger⟩ := by
  have hkept : (Registry.begin wiring call system.machine.state).state = system.machine.state :=
    Registry.begin_provisions_state hprovisions
  simp only [step_provisioning hprovisions, onMachine, Machine.step, hbegun, hkept, and_self]

theorem complete_of_asks (hprovisions : call.provisions? = some evm) {plan : DeploymentPlan}
    (hbegun : (Registry.begin wiring call system.machine.state).outcome = .ok (.asks plan)) :
    let reply := system.ledger.reply wiring.hash plan.request
    let resumed := Registry.resume wiring call plan reply system.machine.state
    (system.complete wiring call none).effect = .ended call resumed.outcome ∧
      (system.complete wiring call none).system =
        ⟨⟨resumed.state, system.machine.waiting⟩,
          system.ledger.deploy wiring.hash plan.request⟩ := by
  intro reply resumed
  obtain ⟨hasked, hjoined⟩ := step_of_asks hprovisions hbegun
  have hcomplete : system.complete wiring call none =
      (system.step wiring (.call call)).system.step wiring .deploy := by
    simp only [complete, hasked]
  rw [hcomplete, hjoined, step_deploy_effect rfl, step_deploy_cons rfl,
    Machine.step_reply_cons _ rfl]
  exact ⟨rfl, rfl⟩

/-- A provisioning whose request is rejected ends with the reason. -/
theorem complete_of_rejected (hstandard : wiring.Standard)
    (hprovisions : call.provisions? = some evm) {plan : DeploymentPlan} {reason : String}
    (hbegun : (Registry.begin wiring call system.machine.state).outcome = .ok (.asks plan))
    (hrejected : system.ledger.rejection plan.request = some reason) :
    (system.complete wiring call none).effect =
        .ended call (.error (.failed (Ledger.rejected plan.request reason))) ∧
      (system.complete wiring call none).system = ⟨system.machine, system.ledger.counted⟩ := by
  have hcall := Call.ne_deployIfAbsent_of_provisions? hprovisions
  obtain ⟨-, hderived, -⟩ := Registry.begin_asks_derived hstandard hcall hbegun
  obtain ⟨heffect, hsystem⟩ := complete_of_asks hprovisions hbegun
  rw [heffect, hsystem, Ledger.reply_of_rejected hrejected, Ledger.deploy_of_rejected hrejected]
  have hended : (Registry.resume wiring call plan (.refused (Ledger.rejected plan.request reason))
      system.machine.state).outcome =
      .error (.failed (Ledger.rejected plan.request reason)) := by
    rw [Registry.resume_of_ne hcall, hstandard, outcome_bind,
      Addresses.finish_of_rejected hderived]
  rw [hended, Registry.resume_reverts hstandard hcall hderived _ _ hended]
  exact ⟨rfl, rfl⟩

/-- A provisioning whose rule of the ledger throws ends with an error. -/
theorem complete_of_thrown (hstandard : wiring.Standard)
    (hprovisions : call.provisions? = some evm) {plan : DeploymentPlan}
    (hbegun : (Registry.begin wiring call system.machine.state).outcome = .ok (.asks plan))
    (fault : Fault) :
    (∃ stop, (system.complete wiring call (some fault)).effect = .ended call (.error stop)) ∧
      (system.complete wiring call (some fault)).system =
        ⟨system.machine, system.ledger.counted⟩ := by
  have hcall := Call.ne_deployIfAbsent_of_provisions? hprovisions
  obtain ⟨-, hderived, -⟩ := Registry.begin_asks_derived hstandard hcall hbegun
  obtain ⟨hasked, hjoined⟩ := step_of_asks hprovisions hbegun
  -- what the rule threw escapes from the plan, and so from the call
  obtain ⟨stop, hended⟩ : ∃ stop, (Registry.resume wiring call plan (.threw fault)
      system.machine.state).outcome = .error stop := by
    obtain ⟨⟨stop, hfinished⟩, -⟩ := Addresses.finish_of_stopped
      (show (Provisioning.conclude wiring.hash plan (.threw fault) system.machine.state).outcome =
        .error (.escaped fault) from rfl)
    refine ⟨stop, ?_⟩
    rw [Registry.resume_of_ne hcall, hstandard, outcome_bind, hfinished]
  have hkept := Registry.resume_reverts hstandard hcall hderived (.threw fault) stop hended
  have hcomplete : system.complete wiring call (some fault) =
      System.step wiring ⟨⟨system.machine.state, ⟨call, plan⟩ :: system.machine.waiting⟩,
        system.ledger.counted⟩ (.reply (.threw fault)) := by
    simp only [complete, hasked, hjoined]
  rw [hcomplete]
  refine ⟨⟨stop, ?_⟩, ?_⟩
  · simp only [step, onMachine, Machine.step, hended]
  · simp only [step, onMachine, Machine.step, hkept]

/-- A provisioning whose request is let pass ends with the planned address, and its mapping is
written. -/
theorem complete_of_admitted (hstandard : wiring.Standard)
    (hprovisions : call.provisions? = some evm) {plan : DeploymentPlan}
    (hbegun : (Registry.begin wiring call system.machine.state).outcome = .ok (.asks plan))
    (hadmitted : system.ledger.rejection plan.request = none) :
    (system.complete wiring call none).effect =
        .ended call (.ok (.integer plan.nativeAddress)) ∧
      (system.complete wiring call none).system =
        ⟨⟨Addresses.writing system.machine.state plan.mapping, system.machine.waiting⟩,
          system.ledger.deploy wiring.hash plan.request⟩ := by
  have hcall := Call.ne_deployIfAbsent_of_provisions? hprovisions
  obtain ⟨-, hderived, -, hadmits⟩ := Registry.begin_asks_derived hstandard hcall hbegun
  obtain ⟨heffect, hsystem⟩ := complete_of_asks hprovisions hbegun
  obtain ⟨hended, hwritten⟩ := Registry.resume_of_admits hstandard hcall hderived
    (Ledger.confirms_of_admitted hderived hadmitted) hadmits
  rw [heffect, hsystem, hended, hwritten]
  exact ⟨rfl, rfl⟩

end System

end AccountRegistry
