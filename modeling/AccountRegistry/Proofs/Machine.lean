import AccountRegistry.Proofs.Calls

/-!
# Steps and runs of a registry

What one event can do to a registry over any ledger, said once for each part of the machine:

* `step_table`: the address table stays as it is, or gets one mapping that it admits; `Writes`
  lists the two ways in which an event writes a mapping.
* `run_extends`: so a run never takes back or changes a mapping.
* `step_waiting`: a call joins the waiting calls with its plan, or the latest one leaves them.
* `Coherent`, with `Coherent.step` and `Coherent.run`: a waiting call holds a plan for the address
  that it provisions, however long it waits and whatever is called meanwhile.
* `native?_of_step`: an event that ends a call with the native address of an EVM address leaves the
  EVM address mapped to it.

Runs are lists of events; `run_append` cuts them into what came before and what comes after.  The
ledger, the hash and the class references are arbitrary throughout.
-/

namespace AccountRegistry

/-- Why a call ended without a result, where it did. -/
def Effect.stop? : Effect → Option Stop
  | .ended _ (.error stop) => some stop
  | _ => none

theorem Effect.stop?_eq_some {effect : Effect} {stop : Stop} :
    effect.stop? = some stop ↔ ∃ call, effect = .ended call (.error stop) := by
  unfold stop?
  split
  · simp
  · rename_i hother
    exact ⟨nofun, fun ⟨call, hended⟩ => absurd hended (hother call stop)⟩

namespace Machine

variable {wiring : Wiring} {machine : Machine}

/-! ## Runs -/

@[simp] theorem run_cons (wiring : Wiring) (machine : Machine) (event : Event)
    (rest : List Event) :
    run wiring machine (event :: rest) = run wiring (machine.step wiring event).machine rest := rfl

theorem run_append (wiring : Wiring) (machine : Machine) (before after : List Event) :
    run wiring machine (before ++ after) = run wiring (run wiring machine before) after := by
  induction before generalizing machine with
  | nil => rfl
  | cons event rest ih => exact ih _

/-- Each effect of a run is that of one of its events, after those that came before it. -/
theorem mem_effects {effect : Effect} {events : List Event} :
    effect ∈ effects wiring machine events ↔
      ∃ before event after, events = before ++ event :: after ∧
        effect = ((run wiring machine before).step wiring event).effect := by
  induction events generalizing machine with
  | nil => simp [effects]
  | cons first rest ih =>
      rw [effects, List.mem_cons, ih]
      -- the effect is that of the first event, or of one of the rest after it
      constructor
      · rintro (rfl | ⟨before, event, after, rfl, rfl⟩)
        · exact ⟨[], first, rest, rfl, rfl⟩
        · exact ⟨first :: before, event, after, rfl, rfl⟩
      · rintro ⟨before, event, after, hsplit, rfl⟩
        cases before with
        | nil =>
            obtain ⟨rfl, rfl⟩ := List.cons.inj hsplit
            exact .inl rfl
        | cons head tail =>
            obtain ⟨rfl, rfl⟩ := List.cons.inj hsplit
            exact .inr ⟨tail, event, after, rfl, rfl⟩

/-- What every event keeps is kept by every run. -/
theorem run_induction {invariant : Machine → Prop}
    (hstep : ∀ machine event, invariant machine → invariant (machine.step wiring event).machine)
    (hinitial : invariant machine) (events : List Event) :
    invariant (run wiring machine events) := by
  induction events generalizing machine with
  | nil => exact hinitial
  | cons event rest ih => exact ih (hstep machine event hinitial)

/-! ## One event -/

theorem step_call_state (wiring : Wiring) (machine : Machine) (call : Call) :
    (machine.step wiring (.call call)).machine.state =
      (Registry.begin wiring call machine.state).state := by
  unfold step
  dsimp only
  split <;> rfl

theorem step_of_finished {call : Call} {result : Answer}
    (hended : (Registry.begin wiring call machine.state).outcome = .ok (.finished result)) :
    (machine.step wiring (.call call)).machine =
        ⟨(Registry.begin wiring call machine.state).state, machine.waiting⟩ ∧
      (machine.step wiring (.call call)).effect = .ended call (.ok result) := by
  simp only [step, hended, and_self]

theorem step_of_stopped {call : Call} {stop : Stop}
    (hended : (Registry.begin wiring call machine.state).outcome = .error stop) :
    (machine.step wiring (.call call)).machine =
        ⟨(Registry.begin wiring call machine.state).state, machine.waiting⟩ ∧
      (machine.step wiring (.call call)).effect = .ended call (.error stop) := by
  simp only [step, hended, and_self]

theorem step_reply_nil (reply : HostReply) (hwaiting : machine.waiting = []) :
    machine.step wiring (.reply reply) = ⟨machine, .ignored, []⟩ := by
  unfold step
  rw [hwaiting]

theorem step_reply_cons {call : Call} {plan : DeploymentPlan} {rest : List Waiting}
    (reply : HostReply) (hwaiting : machine.waiting = ⟨call, plan⟩ :: rest) :
    machine.step wiring (.reply reply) =
      let run := Registry.resume wiring call plan reply machine.state
      ⟨⟨run.state, rest⟩, .ended call run.outcome, run.log⟩ := by
  unfold step
  rw [hwaiting]

/-- A call ends at once or asks the ledger. -/
theorem step_call_effect (wiring : Wiring) (machine : Machine) (call : Call) :
    (∃ outcome, (machine.step wiring (.call call)).effect = .ended call outcome) ∨
      ∃ plan, (machine.step wiring (.call call)).effect = .asked call plan := by
  cases hprogress : (Registry.begin wiring call machine.state).outcome with
  | error stop => exact .inl ⟨.error stop, by simp only [step, hprogress]⟩
  | ok progress =>
      cases progress with
      | finished answer => exact .inl ⟨.ok answer, by simp only [step, hprogress]⟩
      | asks plan => exact .inr ⟨plan, by simp only [step, hprogress]⟩

/-- A call that ends at once ends with what its first half came to. -/
theorem ended_of_step_call {called call : Call} {outcome : Except Stop Answer}
    (hended : (machine.step wiring (.call called)).effect = .ended call outcome) :
    called = call ∧
      ((∃ answer, (Registry.begin wiring call machine.state).outcome = .ok (.finished answer) ∧
          outcome = .ok answer) ∨
        ∃ stop, (Registry.begin wiring call machine.state).outcome = .error stop ∧
          outcome = .error stop) := by
  cases hprogress : (Registry.begin wiring called machine.state).outcome with
  | error stop =>
      simp only [step, hprogress, Effect.ended.injEq] at hended
      obtain ⟨rfl, rfl⟩ := hended
      exact ⟨rfl, .inr ⟨stop, hprogress, rfl⟩⟩
  | ok progress =>
      cases progress with
      | asks plan => simp [step, hprogress] at hended
      | finished answer =>
          simp only [step, hprogress, Effect.ended.injEq] at hended
          obtain ⟨rfl, rfl⟩ := hended
          exact ⟨rfl, .inl ⟨answer, hprogress, rfl⟩⟩

/-- A call that a reply ends is the latest of those that waited. -/
theorem ended_of_step_reply {reply : HostReply} {call : Call} {outcome : Except Stop Answer}
    (hended : (machine.step wiring (.reply reply)).effect = .ended call outcome) :
    ∃ plan rest, machine.waiting = ⟨call, plan⟩ :: rest ∧
      (Registry.resume wiring call plan reply machine.state).outcome = outcome := by
  cases hwaiting : machine.waiting with
  | nil => rw [step_reply_nil reply hwaiting] at hended; cases hended
  | cons waiting rest =>
      obtain ⟨waited, plan⟩ := waiting
      rw [step_reply_cons reply hwaiting] at hended
      simp only [Effect.ended.injEq] at hended
      obtain ⟨rfl, houtcome⟩ := hended
      exact ⟨plan, rest, rfl, houtcome⟩

/-- The two ways in which an event writes a mapping: a confirming reply to a waiting provisioning
writes the mapping of its plan, and a registration by the account that was derived for an address
writes what the ledger shows of it. -/
inductive Writes (wiring : Wiring) (machine : Machine) : Event → Mapping → Prop
  | provisioned {call : Call} {plan : DeploymentPlan} {rest : List Waiting} {reply : HostReply}
      (hwaiting : machine.waiting = ⟨call, plan⟩ :: rest)
      (hcall : ∀ given, call ≠ .deployIfAbsent given)
      (hconfirms : reply.Confirms plan) :
      Writes wiring machine (.reply reply) plan.mapping
  | registered {caller evm : Int} {account : DeployedAccount}
      (hderived : Provisioning.derive wiring.hash wiring.identity.deployer ClassReferences.read
        machine.state.references evm = .ok caller) :
      Writes wiring machine (.call (.register caller evm (some account)))
        (Addresses.registration account caller evm)

/-- An event keeps the address table or adds one mapping that the table admits. -/
theorem step_table (hstandard : wiring.Standard) (machine : Machine) (event : Event) :
    (machine.step wiring event).machine.state.table = machine.state.table ∨
      ∃ mapping, Writes wiring machine event mapping ∧ machine.state.table.Admits mapping ∧
        (machine.step wiring event).machine.state.table = machine.state.table.add mapping := by
  cases event with
  | call call =>
      rw [step_call_state]
      -- `register` is the only call that may write before the ledger is asked
      by_cases hregister : ∃ caller evm account, call = .register caller evm account
      · obtain ⟨caller, evm, account, rfl⟩ := hregister
        rw [Registry.begin_register_state hstandard]
        rcases Addresses.register_state wiring.hash wiring.identity.deployer caller evm account
          machine.state with hkept | ⟨deployed, rfl, hderived, hadmits, hwritten⟩
        · exact .inl (by rw [hkept])
        · exact .inr ⟨_, .registered hderived, hadmits, by rw [hwritten]; rfl⟩
      · refine .inl (Registry.begin_keeps_table wiring ?_ machine.state)
        intro caller evm account hsame
        exact hregister ⟨caller, evm, account, hsame⟩
  | reply reply =>
      cases hwaiting : machine.waiting with
      | nil => exact .inl (by rw [step_reply_nil reply hwaiting])
      | cons waiting rest =>
          obtain ⟨call, plan⟩ := waiting
          rw [step_reply_cons reply hwaiting]
          dsimp only
          rcases Registry.resume_state hstandard call plan reply machine.state with hkept |
            ⟨hcall, hconfirms, hadmits, hwritten⟩
          · exact .inl (by rw [hkept])
          · exact .inr ⟨_, .provisioned hwaiting hcall hconfirms, hadmits, by rw [hwritten]; rfl⟩

/-- A reply that does not confirm the plan of the latest waiting call ends the call and changes
nothing. -/
theorem step_reply_of_not_confirms (hstandard : wiring.Standard) {call : Call}
    {plan : DeploymentPlan} {rest : List Waiting} {reply : HostReply}
    (hwaiting : machine.waiting = ⟨call, plan⟩ :: rest) (hrefuted : ¬ reply.Confirms plan) :
    (machine.step wiring (.reply reply)).machine = ⟨machine.state, rest⟩ := by
  rw [step_reply_cons reply hwaiting]
  dsimp only
  rcases Registry.resume_state hstandard call plan reply machine.state with hkept |
    ⟨-, hconfirms, -, -⟩
  · rw [hkept]
  · exact absurd hconfirms hrefuted

/-- A confirming reply to a waiting provisioning writes the mapping of its plan, if the table still
admits it. -/
theorem step_reply_of_confirms (hstandard : wiring.Standard) {call : Call}
    {plan : DeploymentPlan} {rest : List Waiting} {reply : HostReply}
    (hwaiting : machine.waiting = ⟨call, plan⟩ :: rest)
    (hcall : ∀ given, call ≠ .deployIfAbsent given)
    (hderived : plan.Derived wiring.hash wiring.identity.deployer)
    (hconfirms : reply.Confirms plan) (hadmits : machine.state.table.Admits plan.mapping) :
    (machine.step wiring (.reply reply)).machine =
        ⟨Addresses.writing machine.state plan.mapping, rest⟩ ∧
      (machine.step wiring (.reply reply)).effect =
        .ended call (.ok (.integer plan.nativeAddress)) := by
  rw [step_reply_cons reply hwaiting]
  dsimp only
  obtain ⟨hended, hwritten⟩ :=
    Registry.resume_of_admits hstandard hcall hderived hconfirms hadmits
  rw [hended, hwritten]
  exact ⟨rfl, rfl⟩

/-- An event lets a call join the waiting ones, lets the latest of them leave, or keeps them. -/
theorem step_waiting (wiring : Wiring) (machine : Machine) (event : Event) :
    (machine.step wiring event).machine.waiting = machine.waiting ∨
    (∃ call plan, event = .call call ∧
      (Registry.begin wiring call machine.state).outcome = .ok (.asks plan) ∧
      (machine.step wiring event).machine.waiting = ⟨call, plan⟩ :: machine.waiting) ∨
    (∃ waiting reply, event = .reply reply ∧
      machine.waiting = waiting :: (machine.step wiring event).machine.waiting) := by
  cases event with
  | call call =>
      cases hended : (Registry.begin wiring call machine.state).outcome with
      | error stop => exact .inl (by simp [step, hended])
      | ok progress =>
          cases progress with
          | finished answer => exact .inl (by simp [step, hended])
          | asks plan => exact .inr (.inl ⟨call, plan, rfl, hended, by simp [step, hended]⟩)
  | reply reply =>
      cases hwaiting : machine.waiting with
      | nil => exact .inl (by rw [step_reply_nil reply hwaiting, hwaiting])
      | cons waiting rest =>
          exact .inr (.inr ⟨waiting, reply, rfl, by rw [step_reply_cons reply hwaiting]⟩)

/-! ## Growing tables -/

theorem step_extends (hstandard : wiring.Standard) (machine : Machine) (event : Event) :
    machine.state.table.Extends (machine.step wiring event).machine.state.table := by
  rcases step_table hstandard machine event with hkept | ⟨mapping, -, hadmits, hwritten⟩
  · rw [hkept]
    exact .refl _
  · rw [hwritten]
    exact .add hadmits.unmapped

theorem run_extends (hstandard : wiring.Standard) (machine : Machine) (events : List Event) :
    machine.state.table.Extends (run wiring machine events).state.table := by
  induction events generalizing machine with
  | nil => exact .refl _
  | cons event rest ih => exact (step_extends hstandard machine event).trans (ih _)

end Machine

/-! ## Waiting calls -/

/-- What a waiting call waits for: a bare deployment for any plan, a provisioning for a plan that
the registry made for the address that the call provisions. -/
def Waiting.Coherent (wiring : Wiring) (waiting : Waiting) : Prop :=
  (∃ given, waiting.call = .deployIfAbsent given) ∨
    (waiting.call.provisions? = some waiting.plan.evmAddress ∧
      waiting.plan.Derived wiring.hash wiring.identity.deployer)

/-- Every waiting call is coherent. -/
def Machine.Coherent (wiring : Wiring) (machine : Machine) : Prop :=
  ∀ waiting ∈ machine.waiting, waiting.Coherent wiring

namespace Machine

variable {wiring : Wiring} {machine : Machine}

theorem Coherent.idle (wiring : Wiring) (state : State) : (Machine.idle state).Coherent wiring :=
  fun _ hmem => absurd hmem List.not_mem_nil

/-- The latest waiting call holds a plan of the registry for the address that it provisions, unless
it is a bare deployment. -/
theorem Coherent.latest (hcoherent : machine.Coherent wiring) {call : Call}
    {plan : DeploymentPlan} {rest : List Waiting}
    (hwaiting : machine.waiting = ⟨call, plan⟩ :: rest)
    (hcall : ∀ given, call ≠ .deployIfAbsent given) :
    call.provisions? = some plan.evmAddress ∧
      plan.Derived wiring.hash wiring.identity.deployer := by
  have hmem : ⟨call, plan⟩ ∈ machine.waiting := by
    rw [hwaiting]
    exact List.mem_cons_self
  rcases hcoherent _ hmem with ⟨given, hbare⟩ | hplanned
  · exact absurd hbare (hcall given)
  · exact hplanned

theorem Coherent.step (hstandard : wiring.Standard) (hcoherent : machine.Coherent wiring)
    (event : Event) : (machine.step wiring event).machine.Coherent wiring := by
  intro waiting hmem
  rcases step_waiting wiring machine event with hkept |
    ⟨call, plan, rfl, hasks, hjoined⟩ | ⟨latest, reply, rfl, hleft⟩
  · rw [hkept] at hmem
    exact hcoherent waiting hmem
  · rw [hjoined] at hmem
    rcases List.mem_cons.mp hmem with rfl | hmem
    · rcases Registry.begin_asks hstandard hasks with rfl | ⟨evm, kind, code, hwants, hplan, -⟩
      · exact .inl ⟨plan, rfl⟩
      · obtain ⟨rfl, hderived⟩ := Provisioning.plan_derived hplan
        exact .inr ⟨hwants.provisions?, hderived⟩
    · exact hcoherent waiting hmem
  · refine hcoherent waiting ?_
    rw [hleft]
    exact List.mem_cons_of_mem _ hmem

theorem Coherent.run (hstandard : wiring.Standard) (hcoherent : machine.Coherent wiring)
    (events : List Event) : (machine.run wiring events).Coherent wiring :=
  run_induction (fun _ event hcoherent => hcoherent.step hstandard event) hcoherent events

/-! ## Results -/

/-- An event that ends a call with the native address of the call's EVM address leaves the EVM
address mapped to it. -/
theorem native?_of_step (hstandard : wiring.Standard) (hcoherent : machine.Coherent wiring)
    {event : Event} {call : Call} {evm native : Int} (htarget : call.target? = some evm)
    (hended : (machine.step wiring event).effect = .ended call (.ok (.integer native))) :
    (machine.step wiring event).machine.state.table.native? evm = some native := by
  cases event with
  | call called =>
      rw [step_call_state]
      cases houtcome : (Registry.begin wiring called machine.state).outcome with
      | error stop => simp [Machine.step, houtcome] at hended
      | ok progress =>
          cases progress with
          | asks plan => simp [Machine.step, houtcome] at hended
          | finished answer =>
              simp only [Machine.step, houtcome, Effect.ended.injEq, Except.ok.injEq] at hended
              obtain ⟨rfl, rfl⟩ := hended
              exact Registry.native?_of_begin hstandard htarget houtcome
  | reply reply =>
      cases hwaiting : machine.waiting with
      | nil => rw [step_reply_nil reply hwaiting] at hended; cases hended
      | cons waiting rest =>
          obtain ⟨waited, plan⟩ := waiting
          rw [step_reply_cons reply hwaiting] at hended ⊢
          simp only [Effect.ended.injEq] at hended
          obtain ⟨rfl, houtcome⟩ := hended
          -- a bare deployment has no target, so the plan is one of the registry for this address
          have hcall : ∀ given, waited ≠ .deployIfAbsent given := by
            rintro given rfl
            cases htarget
          have hplanned := hcoherent.latest hwaiting hcall
          rw [Call.target?_of_provisions? hplanned.1] at htarget
          cases htarget
          exact Registry.native?_of_resume hstandard hcall houtcome

end Machine

/-! ## A small registry

Deployed at 1 and owned by 2, with no code, no genesis and no class references.  Runs on given
events are taken on it. -/

/-- The setup of a registry with nothing but its two addresses. -/
def Setup.small : Setup where
  spec := ⟨"small", 1, 1, 2, none, [], none⟩
  overrides := ⟨none, none⟩
  code := []
  withGenesis := false

/-- The small registry under a hash. -/
def Launched.small (hash : Hash) : Launched where
  wiring := ⟨hash, ⟨"small", 1, 1, 2⟩, Setup.small.spec, ServiceId.standing, .standard hash 1⟩
  state := .initial 2 []
  log := ServiceId.standing.map fun id => Lifecycle.registered id.label

theorem Launched.create_small (hash : Hash) :
    Launched.create hash .small = .ok (.small hash) := rfl

/-- A hash under which every account lives at its class reference, which is the last of the first
four words that an address is hashed from. -/
def Hash.toClassReference : Hash := fun bytes => Word.ofBytes (bytes.take 128)

/-- A hash under which every account lives at the EVM address that it stands for, which is the third
of these words. -/
def Hash.toSalt : Hash := fun bytes => Word.ofBytes (bytes.take 96)

end AccountRegistry
