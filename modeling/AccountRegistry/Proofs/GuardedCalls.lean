import AccountRegistry.Proofs.Machine
import AccountRegistry.Proofs.TableWrites

/-!
# What a call can be refused with

Each call has a list of codes (`Call.codes`).  In a valid state it ends with a result or with a
refusal under one of them, before the ledger is asked (`Registry.begin_guarded`) and after the
ledger has replied (`Registry.resume_of_refuted`, `Registry.resume_of_confirms`), as long as the
ledger does not throw.

`Machine.Valid` is what keeps this going from call to call: the state is valid, and every waiting
call holds a plan of the registry.
-/

namespace AccountRegistry

open Procedure

/-! ## The codes of a call -/

/-- What a provisioning can be refused with. -/
def provisioningCodes : List FaultCode :=
  [.invalidEvmAddress, .invalidBytecode, .classReferenceMissing, .derivationCollision,
   .deploymentFailed, .alreadyRegistered]

theorem startCodes_subset : Addresses.startCodes ⊆ provisioningCodes := by decide

/-- What a call can be refused with. -/
def Call.codes : Call → List FaultCode
  | .resolve _ => provisioningCodes
  | .provisionEoa _ => provisioningCodes
  | .provisionContract _ _ => provisioningCodes
  | .register _ _ _ =>
      [.alreadyRegistered, .invalidEvmAddress, .classReferenceMissing, .unauthorized,
       .deploymentFailed, .derivationCollision]
  | .compute _ => [.invalidEvmAddress, .classReferenceMissing]
  | .derive _ => [.invalidEvmAddress, .classReferenceMissing]
  | .plan _ _ _ => [.invalidBytecode, .invalidEvmAddress, .classReferenceMissing]
  | .setClassReference _ _ _ => [.unauthorized, .invalidClassKind, .invalidClassReference]
  | .setNativeToken _ _ => [.unauthorized, .alreadyConfigured, .invalidNativeAddress]
  | .setContext _ _ _ => [.unauthorized, .invalidNativeAddress, .invalidBaseFee]
  | .transferOwnership _ _ => [.unauthorized, .invalidNativeAddress]
  | .classReference _ => [.invalidClassKind, .notConfigured]
  | .versionedReference _ => [.invalidClassKind, .notConfigured]
  | .nativeToken => [.notConfigured]
  | .context => [.notConfigured]
  | .coinbase => [.notConfigured]
  | .baseFee => [.notConfigured]
  | .initGenesis => Configuration.codes
  | .initAll => Configuration.codes
  | _ => []

theorem Call.codes_of_provisions? {call : Call} {evm : Int}
    (hprovisions : call.provisions? = some evm) : call.codes = provisioningCodes := by
  cases call <;> first | rfl | cases hprovisions

/-! ## Reading the configuration -/

theorem ClassReferences.readVersioned_within (store : ClassReferences) (label : String)
    {fault : Fault} (hfault : store.readVersioned label = .error fault) :
    Stop.Within [.invalidClassKind, .notConfigured] (.failed fault) := by
  unfold readVersioned kindOf at hfault
  cases hkind : ClassKind.ofLabel? label with
  | none =>
      rw [hkind] at hfault
      cases hfault
      exact ⟨.invalidClassKind, by simp, rfl⟩
  | some kind =>
      rw [hkind] at hfault
      simp only [bind, Except.bind] at hfault
      split at hfault
      · cases hfault
      · cases hfault
        exact ⟨.notConfigured, by simp, rfl⟩

theorem ClassReferences.read_within (store : ClassReferences) (label : String) {fault : Fault}
    (hfault : store.read label = .error fault) :
    Stop.Within [.invalidClassKind, .notConfigured] (.failed fault) := by
  refine store.readVersioned_within label ?_
  unfold read at hfault
  cases hread : store.readVersioned label with
  | ok versioned => rw [hread] at hfault; cases hfault
  | error other => rw [hread] at hfault; cases hfault; rfl

theorem Configuration.nativeToken_within (state : State) {fault : Fault}
    (hfault : nativeToken state = .error fault) :
    Stop.Within [.notConfigured] (.failed fault) := by
  unfold nativeToken at hfault
  split at hfault
  · cases hfault
  · cases hfault
    exact ⟨.notConfigured, by simp, rfl⟩

theorem Configuration.context_within (state : State) {fault : Fault}
    (hfault : context state = .error fault) : Stop.Within [.notConfigured] (.failed fault) := by
  unfold context at hfault
  split at hfault
  · cases hfault
  · cases hfault
    exact ⟨.notConfigured, by simp, rfl⟩

/-! ## Before the reply -/

namespace Registry

variable {wiring : Wiring} {state : State} {codes : List FaultCode}

theorem finishing_guarded {α : Type} {procedure : Procedure State α}
    (hguarded : Guarded State.Valid codes procedure) (answer : α → Answer) :
    Guarded State.Valid codes (finishing procedure answer) :=
  hguarded.bind fun _ => .pure _

theorem reading_guarded {α : Type} {read : State → Except Fault α}
    (hread : ∀ state fault, read state = .error fault → Stop.Within codes (.failed fault))
    (answer : α → Answer) : Guarded State.Valid codes (reading read answer) :=
  Guarded.get.bind fun state => finishing_guarded (.ofExcept (hread state)) answer

theorem ofStart_guarded {start : Procedure State Addresses.Start}
    (hstate : ∀ state, (start state).state = state)
    (hstart : ∀ state, state.Valid → StopsWithin codes (start state).outcome) :
    Guarded State.Valid codes (ofStart start) := by
  refine .bind (fun state hvalid => ?_) fun started => ?_
  · rw [hstate]
    exact ⟨hvalid, hstart state hvalid⟩
  · cases started with
    | mapped native => exact .pure _
    | planned plan => exact .pure _

/-- Before it asks the ledger, a provisioning can only be refused for what it checks itself. -/
theorem begin_provisions_guarded (hstandard : wiring.Standard)
    (hdeployer : Address.IsNative wiring.identity.deployer) {call : Call} {evm : Int}
    (hprovisions : call.provisions? = some evm) :
    Guarded State.Valid Addresses.startCodes (begin wiring call) := by
  cases call with
  | resolve evm =>
      refine ofStart_guarded (Addresses.resolve_state _ _ evm) fun state hvalid => ?_
      rw [hstandard]
      exact Addresses.resolve_stopsWithin hdeployer hvalid evm
  | provisionEoa evm | provisionContract evm code =>
      refine ofStart_guarded (Addresses.provision_state _ _ evm _ _) fun state hvalid => ?_
      rw [hstandard]
      exact Addresses.provision_stopsWithin hdeployer hvalid evm _ _
  | _ => cases hprovisions

/-- Up to its end or its request a call keeps the state valid, and can only be refused. -/
theorem begin_guarded (hstandard : wiring.Standard)
    (hdeployer : Address.IsNative wiring.identity.deployer) (call : Call) :
    Guarded State.Valid call.codes (begin wiring call) := by
  cases call with
  | resolve evm | provisionEoa evm | provisionContract evm code =>
      exact (begin_provisions_guarded hstandard hdeployer rfl).mono startCodes_subset
  | register caller evm account =>
      refine finishing_guarded (fun state hvalid => ?_) _
      rw [hstandard]
      rcases Addresses.register_of_valid wiring.hash hdeployer hvalid caller evm account with
        ⟨code, hmem, hrefused⟩ | ⟨deployed, -, hevm, hnative, hadmits, houtcome, hwritten⟩
      · exact hrefused.guarded hvalid hmem
      · rw [houtcome, hwritten]
        exact ⟨Addresses.valid_writing hvalid hadmits hevm hnative, .ok caller⟩
  | compute evm =>
      refine finishing_guarded (fun state hvalid => ?_) _
      rw [Addresses.compute_state, hstandard]
      exact ⟨hvalid, Addresses.compute_stopsWithin hdeployer hvalid evm⟩
  | derive evm =>
      refine .get_bind fun state hvalid => finishing_guarded (.ofStop ?_) _
      rw [hstandard]
      exact Provisioning.derive_stopsWithin hdeployer hvalid.references
  | plan evm kind code =>
      refine .get_bind fun state hvalid => finishing_guarded (.ofStop ?_) _
      rw [hstandard]
      exact Provisioning.plan_stopsWithin wiring.hash evm hdeployer hvalid.references kind code
  | setClassReference caller kind reference =>
      exact finishing_guarded (Configuration.setClassReference_guarded _ _ _) _
  | setNativeToken caller address =>
      exact finishing_guarded (Configuration.setNativeToken_guarded _ _) _
  | setContext caller coinbase baseFee =>
      exact finishing_guarded (Configuration.setContext_guarded _ _ _) _
  | transferOwnership caller newOwner =>
      exact finishing_guarded (Configuration.transferOwnership_guarded _ _) _
  | classReference kind =>
      exact reading_guarded (fun state _ => state.references.read_within kind) _
  | versionedReference kind =>
      exact reading_guarded (fun state _ => state.references.readVersioned_within kind) _
  | nativeToken => exact reading_guarded (fun state _ => Configuration.nativeToken_within state) _
  | context | coinbase | baseFee =>
      exact reading_guarded (fun state _ => Configuration.context_within state) _
  | initGenesis => exact finishing_guarded (Genesis.init_guarded _) _
  | initAll =>
      refine finishing_guarded (Lifecycle.runInOrder_guarded fun service hservice => ?_) _
      obtain ⟨id, -, rfl⟩ := List.mem_map.mp hservice
      exact (wiring.service_guarded id).1
  | startAll =>
      refine finishing_guarded (Lifecycle.runInOrder_guarded fun service hservice => ?_) _
      obtain ⟨id, -, rfl⟩ := List.mem_map.mp hservice
      exact (wiring.service_guarded id).2.1
  | stopAll =>
      refine finishing_guarded (Lifecycle.stopAll_guarded fun service hservice => ?_) _
      obtain ⟨id, -, rfl⟩ := List.mem_map.mp hservice
      exact (wiring.service_guarded id).2.2
  | setCode evm code =>
      refine finishing_guarded (.modify (f := fun state => state.withCode evm code) ?_) _
      exact fun _ hvalid => { hvalid with }
  | deployIfAbsent | identity | spec => exact .pure _
  | lookup | mapping | evmOf | owner | isAuthorized | code | serviceStatus | statuses |
      allRunning => exact Guarded.get.bind fun _ => .pure _

/-! ## After the reply -/

section Replies

variable {call : Call} {plan : DeploymentPlan} {reply : HostReply}

/-- A reply that neither confirms a plan of the registry nor throws ends in a refusal. -/
theorem resume_of_refuted (hstandard : wiring.Standard)
    (hcall : ∀ given, call ≠ .deployIfAbsent given)
    (hderived : plan.Derived wiring.hash wiring.identity.deployer)
    (hreturned : ∀ fault, reply ≠ .threw fault) (hrefuted : ¬ reply.Confirms plan) :
    ∃ code ∈ [FaultCode.deploymentFailed, .derivationCollision],
      (resume wiring call plan reply state).Refused code state := by
  obtain ⟨code, hmem, hrefused⟩ := Addresses.finish_of_refuted hderived hreturned hrefuted
  rw [resume_of_ne hcall, hstandard]
  exact ⟨code, hmem, refused_bind _ hrefused⟩

/-- A reply that confirms a plan of the registry leaves it to the table whether the call ends with
the planned address or is refused. -/
theorem resume_of_confirms (hstandard : wiring.Standard)
    (hcall : ∀ given, call ≠ .deployIfAbsent given)
    (hderived : plan.Derived wiring.hash wiring.identity.deployer)
    (hvalid : state.table.Valid) (hconfirms : reply.Confirms plan) :
    Addresses.Recorded state plan.mapping (fun mapping => Answer.integer mapping.nativeAddress)
      (resume wiring call plan reply state) := by
  rw [resume_of_ne hcall, hstandard]
  exact (Addresses.finish_of_confirms hvalid hderived hconfirms).map Answer.integer
    (outcome_bind_pure _ _ _) (state_bind_of_keeps (fun _ => .pure _) state)

/-- A waiting provisioning that is refused has heard of a failed deployment or of a collision, or
its address has been mapped to another native address while it waited. -/
theorem resume_refused (hstandard : wiring.Standard)
    (hcall : ∀ given, call ≠ .deployIfAbsent given)
    (hderived : plan.Derived wiring.hash wiring.identity.deployer)
    (hvalid : state.table.Valid) (hreturned : ∀ fault, reply ≠ .threw fault) {stop : Stop}
    (hended : (resume wiring call plan reply state).outcome = .error stop) :
    stop.Within [.deploymentFailed, .derivationCollision] ∨
      (stop.Within [.alreadyRegistered] ∧
        ∃ existing, state.table.find? plan.evmAddress = some existing ∧
          existing.nativeAddress ≠ plan.nativeAddress) := by
  by_cases hconfirms : reply.Confirms plan
  · cases resume_of_confirms hstandard hcall hderived hvalid hconfirms with
    | converged _ _ _ hanswer | written _ hanswer =>
        rw [hanswer] at hended
        cases hended
    | overtaken existing hfound hother hrefused =>
        refine .inr ⟨?_, existing, hfound, hother⟩
        exact StopsWithin.of_refused hrefused (by simp) stop hended
    | occupied _ hrefused => exact .inl (StopsWithin.of_refused hrefused (by simp) stop hended)
  · obtain ⟨code, hmem, hrefused⟩ :=
      resume_of_refuted hstandard hcall hderived hreturned hconfirms
    exact .inl (StopsWithin.of_refused hrefused hmem stop hended)

end Replies

end Registry

/-! ## The invariant of a run -/

theorem Launched.create_deployer {hash : Hash} {setup : Setup} {launched : Launched}
    (hcreated : Launched.create hash setup = .ok launched) :
    Address.IsNative launched.wiring.identity.deployer :=
  (Wiring.create_isNative (Launched.create_eq_ok hcreated).1).1

/-- The state is valid, and every waiting call holds a plan of the registry or is bare. -/
structure Machine.Valid (wiring : Wiring) (machine : Machine) : Prop where
  coherent : machine.Coherent wiring
  state : machine.state.Valid

namespace Machine

variable {wiring : Wiring} {machine : Machine}

theorem Valid.create {hash : Hash} {setup : Setup} {launched : Launched}
    (hcreated : Launched.create hash setup = .ok launched) :
    (idle launched.state).Valid launched.wiring where
  coherent := .idle _ _
  state := by
    obtain ⟨hwiring, hstate⟩ := Launched.create_eq_ok hcreated
    show launched.state.Valid
    rw [hstate]
    exact .initial (Wiring.create_isNative hwiring).2 setup.code

theorem Valid.step (hstandard : wiring.Standard)
    (hdeployer : Address.IsNative wiring.identity.deployer) (hvalid : machine.Valid wiring)
    (event : Event) : (machine.step wiring event).machine.Valid wiring where
  coherent := hvalid.coherent.step hstandard event
  state := by
    cases event with
    | call call =>
        rw [step_call_state]
        exact (Registry.begin_guarded hstandard hdeployer call _ hvalid.state).1
    | reply reply =>
        cases hwaiting : machine.waiting with
        | nil =>
            rw [step_reply_nil reply hwaiting]
            exact hvalid.state
        | cons waiting rest =>
            obtain ⟨call, plan⟩ := waiting
            rw [step_reply_cons reply hwaiting]
            dsimp only
            -- a waiting call writes its mapping or nothing
            rcases Registry.resume_state hstandard call plan reply machine.state with hkept |
              ⟨hcall, -, hadmits, hwritten⟩
            · rw [hkept]
              exact hvalid.state
            · have hderived := (hvalid.coherent.latest hwaiting hcall).2
              rw [hwritten]
              exact Addresses.valid_writing hvalid.state hadmits hderived.evm
                hderived.native_isNative

theorem Valid.run (hstandard : wiring.Standard)
    (hdeployer : Address.IsNative wiring.identity.deployer) (hvalid : machine.Valid wiring)
    (events : List Event) : (machine.run wiring events).Valid wiring :=
  run_induction (fun _ event hvalid => hvalid.step hstandard hdeployer event) hvalid events

/-- Every run of a created registry is valid throughout. -/
theorem Valid.reached {hash : Hash} {setup : Setup} {launched : Launched}
    (hcreated : Launched.create hash setup = .ok launched) (events : List Event) :
    ((idle launched.state).run launched.wiring events).Valid launched.wiring :=
  (create hcreated).run (Launched.create_standard hcreated) (Launched.create_deployer hcreated)
    events

end Machine

end AccountRegistry
