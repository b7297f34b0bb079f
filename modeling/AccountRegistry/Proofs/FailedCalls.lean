import AccountRegistry.Proofs.GuardedCalls
import AccountRegistry.Proofs.Nesting
import AccountRegistry.Proofs.System

/-!
# Failed calls leave no trace

A call that provisions, registers or writes the configuration either succeeds or changes nothing, as
long as the ledger does not call back before it replies.  All checks of a call come before its only
write, and after the write nothing can fail any more.

* `Registry.begin_reverts`, `Registry.resume_reverts`: the two halves of a call.
* `Machine.complete`: a call with the reply of a ledger that does not call back.
* `System.complete`: the same over the ledger in memory.  What it deploys is what was planned, and
  the table still admits the mapping, so that no account is left without one.
* `System.Alike`: two systems whose ledgers differ in the number of requests answer alike for ever.
* `failed_calls_leave_no_trace`: what follows for every reachable state.
-/

namespace AccountRegistry

open Procedure

/-- The calls that provision an account, register one or write to the configuration. -/
def Call.Atomic : Call → Prop
  | .resolve _ => True
  | .provisionEoa _ => True
  | .provisionContract _ _ => True
  | .register _ _ _ => True
  | .setClassReference _ _ _ => True
  | .setNativeToken _ _ => True
  | .setContext _ _ _ => True
  | .transferOwnership _ _ => True
  | _ => False

theorem Call.Atomic.ne_deployIfAbsent {call : Call} (hatomic : call.Atomic)
    (given : DeploymentPlan) : call ≠ .deployIfAbsent given := by
  rintro rfl
  cases hatomic

theorem Call.Atomic.informed {call : Call} (hatomic : call.Atomic)
    (view : Int → Option DeployedAccount) : (call.informed view).Atomic := by
  cases call <;> exact hatomic

/-! ## The two halves of a call -/

namespace Configuration

variable {state : State}

theorem transferOwnership_reverts (hvalid : state.Valid) (caller newOwner : Int) :
    (transferOwnership caller newOwner).Reverts state := by
  rcases transferOwnership_cases hvalid.owner caller newOwner with ⟨-, hrefused⟩ |
    ⟨-, -, hrefused⟩ | ⟨-, -, hended, -⟩
  · exact reverts_of_refused hrefused
  · exact reverts_of_refused hrefused
  · exact reverts_of_ok hended

theorem setClassReference_reverts (state : State) (caller : Int) (label : String)
    (reference : Int) : (setClassReference caller label reference).Reverts state := by
  rcases setClassReference_cases state caller label reference with ⟨-, hrefused⟩ |
    ⟨-, -, hrefused⟩ | ⟨-, -, hrefused⟩ | ⟨-, -, _, -, hended, -⟩
  · exact reverts_of_refused hrefused
  · exact reverts_of_refused hrefused
  · exact reverts_of_refused hrefused
  · exact reverts_of_ok hended

theorem setNativeToken_reverts (hvalid : state.Valid) (caller address : Int) :
    (setNativeToken caller address).Reverts state := by
  rcases setNativeToken_cases hvalid.nativeToken caller address with ⟨-, hrefused⟩ |
    ⟨-, -, hrefused⟩ | ⟨-, -, -, hrefused⟩ | ⟨-, -, -, hended, -⟩
  · exact reverts_of_refused hrefused
  · exact reverts_of_refused hrefused
  · exact reverts_of_refused hrefused
  · exact reverts_of_ok hended

theorem setContext_reverts (state : State) (caller coinbase baseFee : Int) :
    (setContext caller coinbase baseFee).Reverts state := by
  rcases setContext_cases state caller coinbase baseFee with ⟨-, hrefused⟩ |
    ⟨-, -, hrefused⟩ | ⟨-, -, -, hrefused⟩ | ⟨-, -, -, hended, -⟩
  · exact reverts_of_refused hrefused
  · exact reverts_of_refused hrefused
  · exact reverts_of_refused hrefused
  · exact reverts_of_ok hended

end Configuration

namespace Registry

variable {wiring : Wiring} {state : State}

theorem finishing_reverts {α : Type} {procedure : Procedure State α}
    (hreverts : procedure.Reverts state) (answer : α → Answer) :
    (finishing procedure answer).Reverts state := by
  intro stop hstop
  rw [finishing_state]
  cases hended : (procedure state).outcome with
  | error reason => exact hreverts reason hended
  | ok value =>
      rw [finishing, bind_of_ok _ hended] at hstop
      cases hstop

/-- A call that fails before it asks the ledger has changed nothing. -/
theorem begin_reverts (hstandard : wiring.Standard)
    (hdeployer : Address.IsNative wiring.identity.deployer) (hvalid : state.Valid) {call : Call}
    (hatomic : call.Atomic) : (begin wiring call).Reverts state := by
  cases call with
  | resolve evm => exact fun _ _ => begin_provisions_state rfl
  | provisionEoa evm => exact fun _ _ => begin_provisions_state rfl
  | provisionContract evm code => exact fun _ _ => begin_provisions_state rfl
  | register caller evm account =>
      refine finishing_reverts ?_ _
      rw [hstandard]
      rcases Addresses.register_of_valid wiring.hash hdeployer hvalid caller evm account with
        ⟨code, -, hrefused⟩ | ⟨_, -, -, -, -, hended, -⟩
      · exact reverts_of_refused hrefused
      · exact reverts_of_ok hended
  | setClassReference caller kind reference =>
      exact finishing_reverts (Configuration.setClassReference_reverts _ _ _ _) _
  | setNativeToken caller address =>
      exact finishing_reverts (Configuration.setNativeToken_reverts hvalid _ _) _
  | setContext caller coinbase baseFee =>
      exact finishing_reverts (Configuration.setContext_reverts _ _ _ _) _
  | transferOwnership caller newOwner =>
      exact finishing_reverts (Configuration.transferOwnership_reverts hvalid _ _) _
  | _ => cases hatomic

/-- A provisioning that fails after the reply has changed nothing. -/
theorem resume_reverts (hstandard : wiring.Standard) {call : Call} {plan : DeploymentPlan}
    (hcall : ∀ given, call ≠ .deployIfAbsent given)
    (hderived : plan.Derived wiring.hash wiring.identity.deployer) (reply : HostReply) :
    (resume wiring call plan reply).Reverts state := by
  rcases resume_state hstandard call plan reply state with hkept | ⟨-, hconfirms, hadmits, -⟩
  · exact fun _ _ => hkept
  · exact reverts_of_ok (resume_of_admits hstandard hcall hderived hconfirms hadmits).1

end Registry

/-! ## Over any ledger that does not call back -/

namespace Machine

variable {wiring : Wiring} {machine : Machine} {call : Call}

/-- A call with the reply of a ledger that does not call back, if it asks for one. -/
def complete (wiring : Wiring) (machine : Machine) (call : Call) (reply : HostReply) : Step :=
  let asked := machine.step wiring (.call call)
  match asked.effect with
  | .asked _ _ => asked.machine.step wiring (.reply reply)
  | _ => asked

theorem complete_of_ended {outcome : Except Stop Answer}
    (hended : (machine.step wiring (.call call)).effect = .ended call outcome)
    (reply : HostReply) :
    machine.complete wiring call reply = machine.step wiring (.call call) := by
  simp only [complete, hended]

theorem complete_of_asked {plan : DeploymentPlan}
    (hasked : (machine.step wiring (.call call)).effect = .asked call plan) (reply : HostReply) :
    machine.complete wiring call reply =
      (machine.step wiring (.call call)).machine.step wiring (.reply reply) := by
  simp only [complete, hasked]

/-- A call that fails has changed nothing, whatever the ledger replied. -/
theorem complete_reverts (hstandard : wiring.Standard)
    (hdeployer : Address.IsNative wiring.identity.deployer) (hvalid : machine.Valid wiring)
    (hatomic : call.Atomic) (reply : HostReply) ⦃stop : Stop⦄
    (hfailed : (machine.complete wiring call reply).effect.stop? = some stop) :
    (machine.complete wiring call reply).machine = machine := by
  obtain ⟨failed, hended⟩ := Effect.stop?_eq_some.mp hfailed
  rcases step_call_effect wiring machine call with ⟨outcome, hatOnce⟩ | ⟨plan, hasked⟩
  · rw [complete_of_ended hatOnce] at hended ⊢
    obtain ⟨rfl, ⟨_, -, hok⟩ | ⟨reason, hstopped, -⟩⟩ := ended_of_step_call hended
    · cases hok
    · have hkept := Registry.begin_reverts hstandard hdeployer hvalid.state hatomic reason hstopped
      simp only [step, hstopped, hkept]
  · obtain ⟨-, hbegun, hjoined⟩ := step_asked hstandard hasked
    obtain ⟨-, hderived, -⟩ :=
      Registry.begin_asks_derived hstandard hatomic.ne_deployIfAbsent hbegun
    rw [complete_of_asked hasked, hjoined, step_reply_cons reply rfl] at hended ⊢
    simp only [Effect.ended.injEq] at hended
    have hkept := Registry.resume_reverts hstandard hatomic.ne_deployIfAbsent hderived reply stop
      hended.2
    simp only [hkept]

end Machine

/-! ## Over the ledger in memory -/

namespace Ledger

/-- The ledger after a request at which its rule threw. -/
def counted (ledger : Ledger) : Ledger :=
  { ledger with requests := ledger.requests + 1 }

/-- What a ledger deploys depends on its accounts and its rule alone. -/
theorem accounts_deploy_congr (hash : Hash) (request : DeployRequest) {first second : Ledger}
    (haccounts : first.accounts = second.accounts)
    (hrejection : first.rejection = second.rejection) :
    (first.deploy hash request).accounts = (second.deploy hash request).accounts := by
  obtain ⟨accounts, rejection, count⟩ := first
  obtain ⟨_, _, other⟩ := second
  cases haccounts
  cases hrejection
  have hreply : reply hash ⟨accounts, rejection, count⟩ request =
      reply hash ⟨accounts, rejection, other⟩ request := rfl
  unfold deploy
  rw [hreply]
  split <;> rfl

end Ledger

namespace System

variable {wiring : Wiring} {system first second : System} {call : Call}

/-- A call over the ledger in memory, whose rule may throw at the request. -/
def complete (wiring : Wiring) (system : System) (call : Call) (thrown : Option Fault) : Step :=
  let asked := system.step wiring (.call call)
  match asked.effect, thrown with
  | .asked _ _, none => asked.system.step wiring .deploy
  | .asked _ _, some fault =>
      System.step wiring { asked.system with ledger := asked.system.ledger.counted }
        (.reply (.threw fault))
  | _, _ => asked

/-- Two systems with one registry, over ledgers that differ at most in the number of requests. -/
structure Alike (first second : System) : Prop where
  machine : first.machine = second.machine
  accounts : first.ledger.accounts = second.ledger.accounts
  rejection : first.ledger.rejection = second.ledger.rejection

/-- What a list of events makes a system say: the effect on its registry, the reply to a direct
request and the log of each event. -/
def answers (wiring : Wiring) : System → List Event →
    List (Effect × Option HostReply × List Log.Entry)
  | _, [] => []
  | system, event :: rest =>
      let next := system.step wiring event
      (next.effect, next.reply, next.log) :: answers wiring next.system rest

/-- Alike systems answer an event alike, and stay alike. -/
theorem Alike.step (wiring : Wiring) (halike : first.Alike second) (event : Event) :
    (first.step wiring event).effect = (second.step wiring event).effect ∧
      (first.step wiring event).reply = (second.step wiring event).reply ∧
      (first.step wiring event).log = (second.step wiring event).log ∧
      (first.step wiring event).system.Alike (second.step wiring event).system := by
  -- nothing but the number of requests is left of the second system
  obtain ⟨machine, accounts, rejection, count⟩ := first
  obtain ⟨_, _, _, other⟩ := second
  obtain ⟨hmachine, haccounts, hrejection⟩ := halike
  cases hmachine
  cases haccounts
  cases hrejection
  have hdeployed (request : DeployRequest) :
      (Ledger.deploy wiring.hash ⟨accounts, rejection, count⟩ request).accounts =
          (Ledger.deploy wiring.hash ⟨accounts, rejection, other⟩ request).accounts ∧
        (Ledger.deploy wiring.hash ⟨accounts, rejection, count⟩ request).rejection =
          (Ledger.deploy wiring.hash ⟨accounts, rejection, other⟩ request).rejection := by
    rw [Ledger.rejection_deploy, Ledger.rejection_deploy]
    exact ⟨Ledger.accounts_deploy_congr wiring.hash request rfl rfl, rfl⟩
  cases event with
  | call call => exact ⟨rfl, rfl, rfl, rfl, rfl, rfl⟩
  | reply reply => exact ⟨rfl, rfl, rfl, rfl, rfl, rfl⟩
  | reject rejection => exact ⟨rfl, rfl, rfl, rfl, rfl, rfl⟩
  | request request =>
      exact ⟨rfl, rfl, rfl, rfl, (hdeployed request).1, (hdeployed request).2⟩
  | deploy =>
      cases machine with
      | mk state waiting =>
          cases waiting with
          | nil => exact ⟨rfl, rfl, rfl, rfl, rfl, rfl⟩
          | cons latest rest =>
              exact ⟨rfl, rfl, rfl, rfl, (hdeployed _).1, (hdeployed _).2⟩

theorem Alike.answers_eq (halike : first.Alike second) (events : List Event) :
    first.answers wiring events = second.answers wiring events := by
  induction events generalizing first second with
  | nil => rfl
  | cons event rest ih =>
      obtain ⟨heffect, hreply, hlog, hstep⟩ := halike.step wiring event
      simp only [answers, heffect, hreply, hlog, ih hstep]

theorem complete_of_ended {outcome : Except Stop Answer}
    (hended : (system.step wiring (.call call)).effect = .ended (call.informed system.ledger.find?)
      outcome) (thrown : Option Fault) :
    system.complete wiring call thrown = system.step wiring (.call call) := by
  simp only [complete, hended]

/-- Where the ledger takes the request of a waiting call and the call fails, nothing has happened:
had the account been deployed, the table would have taken its mapping. -/
theorem step_deploy_of_failed (hstandard : wiring.Standard) {plan : DeploymentPlan}
    {rest : List Waiting} (hwaiting : system.machine.waiting = ⟨call, plan⟩ :: rest)
    (hcall : ∀ given, call ≠ .deployIfAbsent given)
    (hderived : plan.Derived wiring.hash wiring.identity.deployer)
    (hadmits : system.machine.state.table.Admits plan.mapping) {stop : Stop}
    (hfailed : (system.step wiring .deploy).effect.stop? = some stop) :
    (system.step wiring .deploy).system.machine = ⟨system.machine.state, rest⟩ ∧
      (system.step wiring .deploy).system.ledger.accounts = system.ledger.accounts ∧
      (system.step wiring .deploy).system.ledger.rejection = system.ledger.rejection ∧
      (system.step wiring .deploy).system.ledger.requests = system.ledger.requests + 1 := by
  have hrefuted : ¬ (system.ledger.reply wiring.hash plan.request).Confirms plan := by
    intro hconfirms
    -- a confirmed plan that the table admits cannot fail any more
    rw [step_deploy_effect hwaiting, (Machine.step_reply_of_confirms hstandard hwaiting hcall
      hderived hconfirms hadmits).2] at hfailed
    cases hfailed
  rw [step_deploy_cons hwaiting]
  refine ⟨Machine.step_reply_of_not_confirms hstandard hwaiting hrefuted, ?_,
    Ledger.rejection_deploy _ _ _, Ledger.requests_deploy _ _ _⟩
  exact Ledger.accounts_deploy_of_ne fun place hreply =>
    hrefuted (Ledger.confirms_of_deployed hderived hreply)

/-- A call that fails over the ledger in memory has left the registry and the accounts as they were,
even where the rule of the ledger threw. -/
theorem complete_alike (hstandard : wiring.Standard)
    (hdeployer : Address.IsNative wiring.identity.deployer)
    (hvalid : system.machine.Valid wiring) (hatomic : call.Atomic) {thrown : Option Fault}
    {stop : Stop} (hfailed : (system.complete wiring call thrown).effect.stop? = some stop) :
    (system.complete wiring call thrown).system.Alike system ∧
      system.ledger.requests ≤ (system.complete wiring call thrown).system.ledger.requests := by
  have hinformed := hatomic.informed system.ledger.find?
  rcases Machine.step_call_effect wiring system.machine (call.informed system.ledger.find?) with
    ⟨outcome, hatOnce⟩ | ⟨plan, hasked⟩
  · rw [complete_of_ended hatOnce] at hfailed ⊢
    have hkept := Machine.complete_reverts hstandard hdeployer hvalid hinformed (.threw default)
    rw [Machine.complete_of_ended hatOnce] at hkept
    exact ⟨⟨hkept hfailed, rfl, rfl⟩, Nat.le_refl _⟩
  · have heffect : (system.step wiring (.call call)).effect = _ := hasked
    cases thrown with
    | none =>
        obtain ⟨-, hbegun, hjoined⟩ := Machine.step_asked hstandard hasked
        obtain ⟨-, hderived, -, hadmits⟩ :=
          Registry.begin_asks_derived hstandard hinformed.ne_deployIfAbsent hbegun
        simp only [complete, heffect, step_call, hjoined] at hfailed ⊢
        let asked : System := ⟨⟨system.machine.state,
          ⟨call.informed system.ledger.find?, plan⟩ :: system.machine.waiting⟩, system.ledger⟩
        have hwaiting : asked.machine.waiting = _ :: system.machine.waiting := rfl
        obtain ⟨hmachine, haccounts, hrejection, hrequests⟩ := step_deploy_of_failed hstandard
          hwaiting hinformed.ne_deployIfAbsent hderived hadmits hfailed
        exact ⟨⟨hmachine, haccounts, hrejection⟩, by rw [hrequests]; exact Nat.le_succ _⟩
    | some fault =>
        simp only [complete, heffect] at hfailed ⊢
        have hkept := Machine.complete_reverts hstandard hdeployer hvalid hinformed (.threw fault)
        rw [Machine.complete_of_asked hasked] at hkept
        exact ⟨⟨hkept hfailed, rfl, rfl⟩, Nat.le_succ _⟩

/-! ## Every reachable state -/

/-- In every reachable state of a created registry, a call that provisions, registers or writes the
configuration, and returns an error or throws, leaves the registry as it was, whatever the ledger
replied without calling back.  Over the ledger in memory it also leaves all accounts as they were,
and everything that happens later is answered as if the call had not been made. -/
theorem failed_calls_leave_no_trace {hash : Hash} {setup : Setup} {launched : Launched}
    (hcreated : Launched.create hash setup = .ok launched) :
    let wiring := launched.wiring
    (∀ (events : List AccountRegistry.Event) (call : Call) (reply : HostReply) (stop : Stop),
      let machine := (Machine.idle launched.state).run wiring events
      let failed := machine.complete wiring call reply
      call.Atomic → failed.effect.stop? = some stop → failed.machine = machine) ∧
    (∀ (ledger : Ledger) (events : List Event) (call : Call) (thrown : Option Fault)
        (stop : Stop),
      let system := (idle launched.state ledger).run wiring events
      let failed := system.complete wiring call thrown
      call.Atomic → failed.effect.stop? = some stop →
        failed.system.machine = system.machine ∧
        failed.system.ledger.accounts = system.ledger.accounts ∧
        system.ledger.requests ≤ failed.system.ledger.requests ∧
        ∀ later, failed.system.answers wiring later = system.answers wiring later) := by
  intro wiring
  have hstandard : wiring.Standard := Launched.create_standard hcreated
  have hdeployer : Address.IsNative wiring.identity.deployer := Launched.create_deployer hcreated
  have hvalid (events : List AccountRegistry.Event) :
      ((Machine.idle launched.state).run wiring events).Valid wiring :=
    .reached hcreated events
  refine ⟨?_, ?_⟩
  · intro events call reply stop machine failed hatomic hfailed
    exact Machine.complete_reverts hstandard hdeployer (hvalid events) hatomic reply hfailed
  · intro ledger events call thrown stop system failed hatomic hfailed
    obtain ⟨taken, htaken⟩ := run_machine wiring (idle launched.state ledger) events
    have hsystem : system.machine.Valid wiring := htaken ▸ hvalid taken
    obtain ⟨halike, hrequests⟩ :=
      complete_alike hstandard hdeployer hsystem hatomic hfailed
    exact ⟨halike.machine, halike.accounts, hrequests, halike.answers_eq⟩

/-- The rule of the ledger rejects the request of a resolution, which fails; when the rule is gone
the address is resolved as if nothing had happened. -/
theorem failed_calls_leave_no_trace_of_rejection :
    let wiring := (Launched.small .toClassReference).wiring
    let system := (idle (Launched.small .toClassReference).state .empty).run wiring
      [.call (.setClassReference 2 "proxy" 9), .reject fun _ => some "full"]
    let failed := system.complete wiring (.resolve 7) none
    let later : List Event := [.reject fun _ => none, .call (.resolve 7), .deploy]
    failed.effect.stop?.bind Stop.code? = some .deploymentFailed ∧
      failed.system.machine = system.machine ∧ failed.system.ledger.accounts = [] ∧
      failed.system.answers wiring later = system.answers wiring later ∧
      (failed.system.run wiring later).machine.state.table.native? 7 = some 9 := by
  intro wiring system failed later
  have hcode : failed.effect.stop?.bind Stop.code? = some .deploymentFailed := by decide +kernel
  obtain ⟨stop, hstop, -⟩ := Option.bind_eq_some_iff.mp hcode
  obtain ⟨hmachine, haccounts, -, hanswers⟩ :=
    (failed_calls_leave_no_trace (Launched.create_small .toClassReference)).2 .empty
      [.call (.setClassReference 2 "proxy" 9), .reject fun _ => some "full"] (.resolve 7) none stop
      trivial hstop
  exact ⟨hcode, hmachine, haccounts, hanswers later, by decide +kernel⟩

end System

end AccountRegistry
