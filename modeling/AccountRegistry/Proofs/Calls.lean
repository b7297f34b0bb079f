import AccountRegistry.Proofs.Addresses
import AccountRegistry.Proofs.Configuration
import AccountRegistry.Registry.Machine

/-!
# What one call does

A call runs up to its end or up to its request to the ledger (`Registry.begin`), and is finished
by the reply (`Registry.resume`).  For each of the two: when it asks, what it returns for an EVM
address, and what it does to the address table.

Only `register` and a confirmed provisioning can write; every other call, the administration and
the lifecycle included, keeps the table.
-/

namespace AccountRegistry

open Procedure

/-! ## Wirings -/

/-- The provisioner is the one that belongs to the hash and the deployer. -/
def Wiring.Standard (wiring : Wiring) : Prop :=
  wiring.provisioner = .standard wiring.hash wiring.identity.deployer

theorem Wiring.create_standard {hash : Hash} {setup : Setup} {wiring : Wiring}
    (hcreated : Wiring.create hash setup = .ok wiring) :
    wiring.Standard ∧ wiring.hash = hash := by
  unfold Wiring.create at hcreated
  split at hcreated
  · cases hcreated
    exact ⟨rfl, rfl⟩
  · cases hcreated

/-- A created registry is wired from its setup and starts in the initial state. -/
theorem Launched.create_eq_ok {hash : Hash} {setup : Setup} {launched : Launched}
    (hcreated : Launched.create hash setup = .ok launched) :
    Wiring.create hash setup = .ok launched.wiring ∧
      launched.state = launched.wiring.initial setup := by
  unfold Launched.create at hcreated
  cases hwiring : Wiring.create hash setup with
  | error fault => rw [hwiring] at hcreated; cases hcreated
  | ok wiring =>
      rw [hwiring] at hcreated
      cases hcreated
      exact ⟨rfl, rfl⟩

theorem Launched.create_standard {hash : Hash} {setup : Setup} {launched : Launched}
    (hcreated : Launched.create hash setup = .ok launched) : launched.wiring.Standard :=
  (Wiring.create_standard (Launched.create_eq_ok hcreated).1).1

theorem Launched.create_hash {hash : Hash} {setup : Setup} {launched : Launched}
    (hcreated : Launched.create hash setup = .ok launched) : launched.wiring.hash = hash :=
  (Wiring.create_standard (Launched.create_eq_ok hcreated).1).2

theorem Launched.create_table {hash : Hash} {setup : Setup} {launched : Launched}
    (hcreated : Launched.create hash setup = .ok launched) : launched.state.table = .empty := by
  rw [(Launched.create_eq_ok hcreated).2]
  rfl

/-- The services of a registry have no part in its address table. -/
theorem Wiring.service_keeps_table (wiring : Wiring) (id : ServiceId) :
    Keeps State.table (wiring.service id).init ∧ Keeps State.table (wiring.service id).start ∧
      Keeps State.table (wiring.service id).stop := by
  refine ⟨?_, Keeps.modify fun _ => rfl, Keeps.modify fun _ => rfl⟩
  unfold Wiring.service
  dsimp only
  split
  · exact Genesis.init_keeps (fun _ _ => rfl) (fun _ _ => rfl) (fun _ _ => rfl) (fun _ _ => rfl) _
  · exact Keeps.modify fun _ => rfl

/-! ## Calls -/

/-- The EVM address whose account a call provisions. -/
def Call.provisions? : Call → Option Int
  | .resolve evm => some evm
  | .provisionEoa evm => some evm
  | .provisionContract evm _ => some evm
  | _ => none

/-- The address, the kind and the code of the account that a call asks for in a state. -/
inductive Call.Wants (state : State) : Call → Int → String → String → Prop
  | resolve (evm : Int) :
      Wants state (.resolve evm) evm
        (if state.codeAt evm = "0x" then ClassKind.eoa.label else ClassKind.contractAccount.label)
        (state.codeAt evm)
  | eoa (evm : Int) : Wants state (.provisionEoa evm) evm ClassKind.eoa.label "0x"
  | contract (evm : Int) (code : String) :
      Wants state (.provisionContract evm code) evm ClassKind.contractAccount.label code

theorem Call.Wants.provisions? {state : State} {call : Call} {evm : Int} {kind code : String}
    (hwants : call.Wants state evm kind code) : call.provisions? = some evm := by
  cases hwants <;> rfl

/-- The EVM address whose native account a call returns when it succeeds. -/
def Call.target? : Call → Option Int
  | .register _ evm _ => some evm
  | .lookup evm => some evm
  | call => call.provisions?

theorem Call.ne_deployIfAbsent_of_provisions? {call : Call} {evm : Int}
    (hprovisions : call.provisions? = some evm) (given : DeploymentPlan) :
    call ≠ .deployIfAbsent given := by
  rintro rfl
  cases hprovisions

theorem Call.target?_of_provisions? {call : Call} {evm : Int}
    (hprovisions : call.provisions? = some evm) : call.target? = some evm := by
  cases call <;> first | exact hprovisions | cases hprovisions

namespace Registry

variable {wiring : Wiring} {state : State}

/-- Every waiting call but a bare deployment goes on to record its mapping. -/
theorem resume_of_ne {call : Call} (hcall : ∀ given, call ≠ .deployIfAbsent given)
    (plan : DeploymentPlan) (reply : HostReply) :
    resume wiring call plan reply =
      Addresses.finish wiring.hash wiring.provisioner plan reply >>= fun native =>
        pure (.integer native) := by
  unfold resume
  split
  · rename_i given
    exact absurd rfl (hcall given)
  · rfl

/-- A provisioning asks for the plan that it came to. -/
theorem ofStart_asks {start : Procedure State Addresses.Start} {plan : DeploymentPlan}
    (hended : (ofStart start state).outcome = .ok (.asks plan)) :
    (start state).outcome = .ok (.planned plan) := by
  obtain ⟨started, hstarted, hended⟩ := outcome_bind_eq_ok.mp hended
  cases started with
  | mapped native => cases hended
  | planned made =>
      cases hended
      exact hstarted

/-- A provisioning that ends at once ends with the mapped address. -/
theorem ofStart_finished {start : Procedure State Addresses.Start} {native : Int}
    (hended : (ofStart start state).outcome = .ok (.finished (.integer native))) :
    (start state).outcome = .ok (.mapped native) := by
  obtain ⟨started, hstarted, hended⟩ := outcome_bind_eq_ok.mp hended
  cases started with
  | mapped found =>
      cases hended
      exact hstarted
  | planned plan => cases hended

theorem ofStart_state (start : Procedure State Addresses.Start) (state : State) :
    (ofStart start state).state = (start state).state := by
  refine state_bind_of_keeps (fun started => ?_) state
  cases started with
  | mapped native => exact Keeps.pure _
  | planned plan => exact Keeps.pure _

theorem finishing_eq_ok {α : Type} {procedure : Procedure State α} {answer : α → Answer}
    {progress : Progress} (hended : (finishing procedure answer state).outcome = .ok progress) :
    ∃ value, (procedure state).outcome = .ok value ∧ progress = .finished (answer value) := by
  obtain ⟨value, hvalue, hended⟩ := outcome_bind_eq_ok.mp hended
  cases hended
  exact ⟨value, hvalue, rfl⟩

theorem finishing_ok {α : Type} {procedure : Procedure State α} {value : α}
    (houtcome : (procedure state).outcome = .ok value) (answer : α → Answer) :
    (finishing procedure answer state).outcome = .ok (.finished (answer value)) := by
  rw [finishing, bind_of_ok _ houtcome]
  rfl

theorem finishing_error {α : Type} {procedure : Procedure State α} {stop : Stop}
    (houtcome : (procedure state).outcome = .error stop) (answer : α → Answer) :
    (finishing procedure answer state).outcome = .error stop := by
  rw [finishing, bind_of_error _ houtcome]

theorem finishing_state {α : Type} (procedure : Procedure State α) (answer : α → Answer)
    (state : State) : (finishing procedure answer state).state = (procedure state).state :=
  state_bind_of_keeps (fun _ => Keeps.pure _) state

theorem finishing_keeps {α β : Type} {view : State → β} {procedure : Procedure State α}
    (hkeeps : Keeps view procedure) (answer : α → Answer) :
    Keeps view (finishing procedure answer) :=
  hkeeps.bind fun _ => Keeps.pure _

theorem reading_keeps {α β : Type} {view : State → β} (read : State → Except Fault α)
    (answer : α → Answer) : Keeps view (reading read answer) :=
  Keeps.get.bind fun _ => finishing_keeps (Keeps.ofExcept _) answer

/-! ## Up to the request -/

/-- A call asks the ledger for the plan that it was given, or for the account that it wants: the
plan is made under the current class references, and the table admits its mapping. -/
theorem begin_asks (hstandard : wiring.Standard) {call : Call} {plan : DeploymentPlan}
    (hended : (begin wiring call state).outcome = .ok (.asks plan)) :
    call = .deployIfAbsent plan ∨
    ∃ evm kind code, call.Wants state evm kind code ∧
      Provisioning.plan wiring.hash wiring.identity.deployer ClassReferences.read
        state.references evm kind code = .ok plan ∧
      state.table.Admits plan.mapping := by
  cases call with
  | resolve evm =>
      have hplanned := ofStart_asks hended
      rw [hstandard] at hplanned
      exact .inr ⟨evm, _, _, .resolve evm, Addresses.resolve_planned hplanned⟩
  | provisionEoa evm =>
      have hplanned := ofStart_asks hended
      rw [hstandard] at hplanned
      exact .inr ⟨evm, _, _, .eoa evm, Addresses.provision_planned hplanned⟩
  | provisionContract evm code =>
      have hplanned := ofStart_asks hended
      rw [hstandard] at hplanned
      exact .inr ⟨evm, _, _, .contract evm code, Addresses.provision_planned hplanned⟩
  | deployIfAbsent given =>
      cases hended
      exact .inl rfl
  | classReference | versionedReference | nativeToken | context | coinbase | baseFee =>
      obtain ⟨_, -, hended⟩ := finishing_eq_ok hended
      cases hended
  | derive | plan =>
      obtain ⟨_, -, hended⟩ := finishing_eq_ok hended
      cases hended
  | lookup | mapping | evmOf | owner | isAuthorized | code | identity | spec | serviceStatus |
      statuses | allRunning => cases hended
  | register | compute | setClassReference | setNativeToken | setContext | transferOwnership |
      setCode | initGenesis | initAll | startAll | stopAll =>
      obtain ⟨_, -, hended⟩ := finishing_eq_ok hended
      cases hended

/-- Unless it is a bare deployment, the plan that a call asks for is one of the registry, made under
the current proxy reference for the address that the call provisions. -/
theorem begin_asks_derived (hstandard : wiring.Standard) {call : Call} {plan : DeploymentPlan}
    (hcall : ∀ given, call ≠ .deployIfAbsent given)
    (hended : (begin wiring call state).outcome = .ok (.asks plan)) :
    call.provisions? = some plan.evmAddress ∧
      plan.Derived wiring.hash wiring.identity.deployer ∧
      state.references.reference? .proxy = some plan.request.classReference ∧
      state.table.Admits plan.mapping := by
  rcases begin_asks hstandard hended with hbare | ⟨evm, kind, code, hwants, hplan, hadmits⟩
  · exact absurd hbare (hcall plan)
  · obtain ⟨rfl, hderived⟩ := Provisioning.plan_derived hplan
    obtain ⟨-, -, reference, hreference, native, -, hmade⟩ := Provisioning.plan_eq_ok.mp hplan
    refine ⟨hwants.provisions?, hderived, ?_, hadmits⟩
    rw [hreference, hmade]

/-- A provisioning changes nothing before it asks the ledger. -/
theorem begin_provisions_state {call : Call} {evm : Int}
    (hprovisions : call.provisions? = some evm) : (begin wiring call state).state = state := by
  cases call with
  | resolve target =>
      show (ofStart _ state).state = state
      rw [ofStart_state, Addresses.resolve_state]
  | provisionEoa target | provisionContract target code =>
      show (ofStart _ state).state = state
      rw [ofStart_state, Addresses.provision_state]
  | _ => cases hprovisions

/-- A call that asks the ledger has changed nothing up to then. -/
theorem begin_asks_state (hstandard : wiring.Standard) {call : Call} {plan : DeploymentPlan}
    (hended : (begin wiring call state).outcome = .ok (.asks plan)) :
    (begin wiring call state).state = state := by
  rcases begin_asks hstandard hended with rfl | ⟨evm, kind, code, hwants, -⟩
  · rfl
  · exact begin_provisions_state hwants.provisions?

/-- A call other than `register` keeps the table. -/
theorem begin_keeps_table (wiring : Wiring) {call : Call}
    (hcall : ∀ caller evm account, call ≠ .register caller evm account) :
    Keeps State.table (begin wiring call) := by
  -- the configuration, the genesis and the lifecycle change other fields of the state
  have hservices := wiring.service_keeps_table
  intro state
  cases call with
  | register caller evm account => exact absurd rfl (hcall caller evm account)
  | resolve evm =>
      show (ofStart _ state).state.table = _
      rw [ofStart_state, Addresses.resolve_state]
  | provisionEoa evm | provisionContract evm code =>
      show (ofStart _ state).state.table = _
      rw [ofStart_state, Addresses.provision_state]
  | compute evm =>
      show (finishing _ _ state).state.table = _
      rw [finishing_state, Addresses.compute_state]
  | setClassReference caller kind reference =>
      exact finishing_keeps (Configuration.setClassReference_keeps (fun _ _ => rfl) _ _ _) _ state
  | setNativeToken caller address =>
      exact finishing_keeps (Configuration.setNativeToken_keeps (fun _ _ => rfl) _ _) _ state
  | setContext caller coinbase baseFee =>
      exact finishing_keeps (Configuration.setContext_keeps (fun _ _ => rfl) _ _ _) _ state
  | transferOwnership caller newOwner =>
      exact finishing_keeps (Configuration.transferOwnership_keeps (fun _ _ => rfl) _ _) _ state
  | initGenesis =>
      exact finishing_keeps (Genesis.init_keeps (fun _ _ => rfl) (fun _ _ => rfl) (fun _ _ => rfl)
        (fun _ _ => rfl) _) _ state
  | initAll =>
      refine finishing_keeps (Lifecycle.runInOrder_keeps fun service hservice => ?_) _ state
      obtain ⟨id, -, rfl⟩ := List.mem_map.mp hservice
      exact (hservices id).1
  | startAll =>
      refine finishing_keeps (Lifecycle.runInOrder_keeps fun service hservice => ?_) _ state
      obtain ⟨id, -, rfl⟩ := List.mem_map.mp hservice
      exact (hservices id).2.1
  | stopAll =>
      refine finishing_keeps (Lifecycle.stopAll_keeps fun service hservice => ?_) _ state
      obtain ⟨id, -, rfl⟩ := List.mem_map.mp hservice
      exact (hservices id).2.2
  | derive | plan => exact Keeps.get.bind (fun _ => finishing_keeps (Keeps.ofStop _) _) state
  | classReference | versionedReference | nativeToken | context | coinbase | baseFee =>
      exact reading_keeps _ _ state
  | setCode evm code => rfl
  | deployIfAbsent | lookup | mapping | evmOf | owner | isAuthorized | code | identity | spec |
      serviceStatus | statuses | allRunning => rfl

/-- What `register` does to the state, as a call. -/
theorem begin_register_state (hstandard : wiring.Standard) (caller evm : Int)
    (account : Option DeployedAccount) (state : State) :
    (begin wiring (.register caller evm account) state).state =
      (Addresses.register wiring.hash (.standard wiring.hash wiring.identity.deployer) caller evm
        account state).state := by
  show (finishing _ _ state).state = _
  rw [finishing_state, hstandard]

/-- A call that returns the native address of an EVM address leaves it mapped to that address. -/
theorem native?_of_begin (hstandard : wiring.Standard) {call : Call} {evm native : Int}
    (htarget : call.target? = some evm)
    (hended : (begin wiring call state).outcome = .ok (.finished (.integer native))) :
    (begin wiring call state).state.table.native? evm = some native := by
  cases call with
  | resolve target =>
      cases htarget
      rw [begin_keeps_table wiring (by simp)]
      exact Addresses.resolve_mapped (ofStart_finished hended)
  | provisionEoa target | provisionContract target code =>
      cases htarget
      rw [begin_keeps_table wiring (by simp)]
      exact Addresses.provision_mapped (ofStart_finished hended)
  | lookup target =>
      cases htarget
      rw [begin_keeps_table wiring (by simp)]
      cases hmapped : state.table.native? evm with
      | none => simp [begin, viewing, hmapped, Answer.ofInteger?] at hended
      | some mapped => simpa [begin, viewing, hmapped, Answer.ofInteger?] using hended
  | register caller target account =>
      cases htarget
      obtain ⟨value, hvalue, hanswer⟩ := finishing_eq_ok hended
      cases hanswer
      rw [begin_register_state hstandard]
      rw [hstandard] at hvalue
      exact Addresses.native?_of_register hvalue
  | _ => cases htarget

/-! ## After the reply -/

/-- A provisioning that waited leaves the state alone, or writes the mapping of a plan that the
reply confirms. -/
theorem resume_state (hstandard : wiring.Standard) (call : Call) (plan : DeploymentPlan)
    (reply : HostReply) (state : State) :
    (resume wiring call plan reply state).state = state ∨
      ((∀ given, call ≠ .deployIfAbsent given) ∧ reply.Confirms plan ∧
        state.table.Admits plan.mapping ∧
        (resume wiring call plan reply state).state = Addresses.writing state plan.mapping) := by
  by_cases hbare : ∃ given, call = .deployIfAbsent given
  · obtain ⟨given, rfl⟩ := hbare
    refine .inl ?_
    unfold resume
    rw [hstandard]
    exact Keeps.state_eq ((Provisioning.conclude_keeps _ _ _).bind fun _ => Keeps.pure _) state
  · -- every other waiting call goes on to finish its provisioning
    have hcall : ∀ given, call ≠ .deployIfAbsent given := fun given hsame => hbare ⟨given, hsame⟩
    rw [resume_of_ne hcall, hstandard, state_bind_of_keeps fun _ => Keeps.pure _]
    rcases Addresses.finish_state wiring.hash wiring.identity.deployer plan reply state with
      hkept | hwritten
    · exact .inl hkept
    · exact .inr ⟨hcall, hwritten⟩

/-- A provisioning that waited for a plan of the registry ends with the planned address when the
reply confirms it and the table still admits its mapping, and the mapping is written. -/
theorem resume_of_admits (hstandard : wiring.Standard) {call : Call} {plan : DeploymentPlan}
    {reply : HostReply} (hcall : ∀ given, call ≠ .deployIfAbsent given)
    (hderived : plan.Derived wiring.hash wiring.identity.deployer)
    (hconfirms : reply.Confirms plan) (hadmits : state.table.Admits plan.mapping) :
    (resume wiring call plan reply state).outcome = .ok (.integer plan.nativeAddress) ∧
      (resume wiring call plan reply state).state = Addresses.writing state plan.mapping := by
  obtain ⟨hended, hwritten⟩ := Addresses.finish_of_admits hderived hconfirms hadmits
  rw [resume_of_ne hcall, hstandard]
  refine ⟨?_, ?_⟩
  · rw [outcome_bind, hended]
    rfl
  · rw [state_bind_of_keeps fun _ => Keeps.pure _, hwritten]

/-- A provisioning that waited and returns an address leaves its EVM address mapped to it. -/
theorem native?_of_resume (hstandard : wiring.Standard) {call : Call} {plan : DeploymentPlan}
    {reply : HostReply} {native : Int} (hcall : ∀ given, call ≠ .deployIfAbsent given)
    (hended : (resume wiring call plan reply state).outcome = .ok (.integer native)) :
    (resume wiring call plan reply state).state.table.native? plan.evmAddress = some native := by
  rw [resume_of_ne hcall, hstandard] at hended ⊢
  obtain ⟨value, hvalue, hanswer⟩ := outcome_bind_eq_ok.mp hended
  cases hanswer
  rw [state_bind_of_keeps fun _ => Keeps.pure _]
  exact Addresses.native?_of_finish hvalue

end Registry

end AccountRegistry
