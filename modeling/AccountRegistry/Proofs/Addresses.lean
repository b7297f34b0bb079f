import AccountRegistry.Proofs.AddressTable
import AccountRegistry.Proofs.Provisioning
import AccountRegistry.Registry.Addresses

/-!
# What the operations on the address table do

One lemma for each operation says everything that it can do to the state.  `record` is the only
writer: it returns the mapping that is there, stops without a change, or adds a mapping that the
table admits (`record_cases`).  `finish` and `register` come to `record` or stop before it without
a change; the other operations only read.
-/

namespace AccountRegistry.Addresses

open Procedure

variable {hash : Hash} {state : State}

/-- A state with a mapping added to its table. -/
def writing (state : State) (mapping : Mapping) : State :=
  { state with table := state.table.add mapping }

@[simp] theorem table_writing (state : State) (mapping : Mapping) :
    (writing state mapping).table = state.table.add mapping := rfl

/-! ## Collisions -/

theorem checkCollision_state (hash : Hash) (evm native : Int) (state : State) :
    (checkCollision hash evm native state).state = state := by
  suffices hkeeps : Keeps id (checkCollision hash evm native) from hkeeps state
  refine Keeps.get.bind fun current => ?_
  split
  · exact Keeps.pure _
  · split
    · exact Keeps.pure _
    · exact (Keeps.orEscape _).bind fun _ => (Keeps.orEscape _).bind fun _ =>
        (Keeps.orEscape _).bind fun _ => (Keeps.note _ _ _).bind fun _ => Keeps.fail _

/-- The check lets an address pass exactly if the native address is bound to no other one. -/
theorem checkCollision_eq_ok {evm native : Int} :
    (checkCollision hash evm native state).outcome = .ok () ↔
      ∀ bound, state.table.evm? native = some bound → bound = evm := by
  unfold checkCollision
  rw [get_bind]
  cases hbound : state.table.evm? native with
  | none => simp
  | some bound =>
      by_cases hsame : bound = evm
      · simp [hsame]
      · simp only [Option.some.injEq, forall_eq', hsame, iff_false]
        intro hended
        obtain ⟨_, -, hended⟩ := outcome_bind_eq_ok.mp hended
        obtain ⟨_, -, hended⟩ := outcome_bind_eq_ok.mp hended
        obtain ⟨_, -, hended⟩ := outcome_bind_eq_ok.mp hended
        simp at hended

theorem alreadyRegistered_state (hash : Hash) (evm : Int) (state : State) :
    (alreadyRegistered hash evm state).state = state :=
  Keeps.state_eq ((Keeps.orEscape _).bind fun _ => Keeps.pure _) state

/-! ## Recording -/

/-- What recording a mapping comes to: the mapping that is there already, a stop without a change,
or the mapping added to a table that admits it.  After the write only the text of an address out
of range can still be a fault. -/
theorem record_cases (hash : Hash) (mapping : Mapping) (state : State) :
    (∃ existing, state.table.find? mapping.evmAddress = some existing ∧
      existing.nativeAddress = mapping.nativeAddress ∧
      (record hash mapping state).outcome = .ok existing ∧
      (record hash mapping state).state = state) ∨
    ((∃ stop, (record hash mapping state).outcome = .error stop) ∧
      ¬ state.table.Admits mapping ∧ (record hash mapping state).state = state) ∨
    (state.table.Admits mapping ∧ (record hash mapping state).state = writing state mapping ∧
      ∀ result, (record hash mapping state).outcome = .ok result → result = mapping) := by
  unfold record
  rw [get_bind]
  cases hfound : state.table.find? mapping.evmAddress with
  | some existing =>
      -- the address is mapped: to the same native address, which is kept, or to another one
      dsimp only
      by_cases hsame : existing.nativeAddress = mapping.nativeAddress
      · rw [if_pos hsame]
        exact .inl ⟨existing, rfl, hsame, rfl, rfl⟩
      · rw [if_neg hsame]
        refine .inr (.inl ⟨?_, ?_, ?_⟩)
        · rw [outcome_bind]
          split
          · exact ⟨_, rfl⟩
          · exact ⟨_, rfl⟩
        · intro hadmits
          rw [hadmits.unmapped] at hfound
          cases hfound
        · rw [state_bind]
          split
          · exact alreadyRegistered_state _ _ _
          · exact alreadyRegistered_state _ _ _
  | none =>
      dsimp only
      rw [outcome_bind, state_bind, checkCollision_state]
      cases hchecked :
          (checkCollision hash mapping.evmAddress mapping.nativeAddress state).outcome with
      | error stop =>
          refine .inr (.inl ⟨⟨stop, rfl⟩, ?_, rfl⟩)
          intro hadmits
          rw [checkCollision_eq_ok.mpr hadmits.unbound] at hchecked
          cases hchecked
      | ok _ =>
          -- the two checks are the two halves of `Admits`; all that follows the write is a note
          refine .inr (.inr ⟨⟨hfound, checkCollision_eq_ok.mp hchecked⟩, ?_, ?_⟩)
          · exact Keeps.state_eq ((Keeps.orEscape _).bind fun _ => (Keeps.orEscape _).bind fun _ =>
              (Keeps.note _ _ _).bind fun _ => Keeps.pure _) _
          · intro result hended
            simp only [modify_bind] at hended
            obtain ⟨_, -, hended⟩ := outcome_bind_eq_ok.mp hended
            obtain ⟨_, -, hended⟩ := outcome_bind_eq_ok.mp hended
            cases hended
            rfl

/-- With both addresses in range, recording an admitted mapping cannot fail. -/
theorem record_of_admits {mapping : Mapping} (hadmits : state.table.Admits mapping)
    (hevm : Address.IsEvm mapping.evmAddress) (hnative : Address.IsNative mapping.nativeAddress) :
    (record hash mapping state).outcome = .ok mapping ∧
      (record hash mapping state).state = writing state mapping := by
  obtain ⟨evmText, hevmText⟩ := hevm.formatEvm hash
  obtain ⟨nativeText, hnativeText⟩ := hnative.formatNative
  have hpassed : (checkCollision hash mapping.evmAddress mapping.nativeAddress state).outcome =
      .ok () := checkCollision_eq_ok.mpr hadmits.unbound
  unfold record
  rw [get_bind, hadmits.unmapped]
  simp only [outcome_bind, state_bind, checkCollision_state, hpassed, hevmText, hnativeText]
  exact ⟨rfl, rfl⟩

/-- A recorded mapping is the one that is found afterwards: the first one written for its EVM
address, with the native address that was to be recorded. -/
theorem find?_of_record {mapping result : Mapping}
    (hended : (record hash mapping state).outcome = .ok result) :
    (record hash mapping state).state.table.find? mapping.evmAddress = some result ∧
      result.nativeAddress = mapping.nativeAddress := by
  rcases record_cases hash mapping state with ⟨existing, hfound, hsame, houtcome, hstate⟩ |
    ⟨⟨stop, houtcome⟩, -, -⟩ | ⟨-, hstate, hresult⟩
  · rw [houtcome] at hended
    cases hended
    exact ⟨by rw [hstate, hfound], hsame⟩
  · rw [houtcome] at hended
    cases hended
  · have hsame := hresult result hended
    subst hsame
    exact ⟨by rw [hstate, table_writing, AddressTable.find?_add_self], rfl⟩

/-- Recording leaves the state alone or writes a mapping that the table admits. -/
theorem record_state (hash : Hash) (mapping : Mapping) (state : State) :
    (record hash mapping state).state = state ∨
      (state.table.Admits mapping ∧
        (record hash mapping state).state = writing state mapping) := by
  rcases record_cases hash mapping state with ⟨_, -, -, -, hstate⟩ | ⟨-, -, hstate⟩ |
    ⟨hadmits, hstate, -⟩
  · exact .inl hstate
  · exact .inl hstate
  · exact .inr ⟨hadmits, hstate⟩

/-! ## Starting -/

section Starting

variable {deployer evm : Int} {kind code : String}

theorem provision_state (hash : Hash) (provisioner : Provisioner) (evm : Int) (kind code : String)
    (state : State) : (provision hash provisioner evm kind code state).state = state := by
  suffices hkeeps : Keeps id (provision hash provisioner evm kind code) from hkeeps state
  refine Keeps.get.bind fun current => ?_
  split
  · dsimp only
    split
    · exact (Keeps.orEscape _).bind fun _ => (Keeps.note _ _ _).bind fun _ => Keeps.pure _
    · exact Keeps.pure _
  · refine (Keeps.ofStop _).bind fun plan => ?_
    exact Keeps.bind (checkCollision_state hash evm plan.nativeAddress) fun _ => Keeps.pure _

/-- A provisioning that ends at once ends with the mapped address. -/
theorem provision_mapped {provisioner : Provisioner} {native : Int}
    (hended : (provision hash provisioner evm kind code state).outcome = .ok (.mapped native)) :
    state.table.native? evm = some native := by
  unfold provision at hended
  rw [get_bind] at hended
  cases hfound : state.table.find? evm with
  | some existing =>
      rw [hfound] at hended
      dsimp only at hended
      have hnative : existing.nativeAddress = native := by
        split at hended
        · obtain ⟨_, -, hended⟩ := outcome_bind_eq_ok.mp hended
          cases hended
          rfl
        · cases hended
          rfl
      rw [AddressTable.native?_of_find? hfound, hnative]
  | none =>
      rw [hfound] at hended
      dsimp only at hended
      obtain ⟨_, -, hended⟩ := outcome_bind_eq_ok.mp hended
      obtain ⟨_, -, hended⟩ := outcome_bind_eq_ok.mp hended
      cases hended

/-- A provisioning asks the ledger only for a plan whose mapping the table admits. -/
theorem provision_planned {plan : DeploymentPlan}
    (hended : (provision hash (.standard hash deployer) evm kind code state).outcome =
      .ok (.planned plan)) :
    Provisioning.plan hash deployer ClassReferences.read state.references evm kind code =
        .ok plan ∧
      state.table.Admits plan.mapping := by
  unfold provision at hended
  rw [get_bind] at hended
  cases hfound : state.table.find? evm with
  | some existing =>
      rw [hfound] at hended
      dsimp only at hended
      split at hended
      · obtain ⟨_, -, hended⟩ := outcome_bind_eq_ok.mp hended
        cases hended
      · cases hended
  | none =>
      rw [hfound] at hended
      dsimp only [Provisioner.standard] at hended
      cases hplan : Provisioning.plan hash deployer ClassReferences.read state.references evm
          kind code with
      | error stop => rw [hplan] at hended; cases hended
      | ok made =>
          -- the plan is for the address itself, so the check passed on the addresses of the plan
          rw [hplan, ofStop_ok, pure_bind_run] at hended
          obtain ⟨_, hpassed, hended⟩ := outcome_bind_eq_ok.mp hended
          cases hended
          have hevm : plan.evmAddress = evm := (Provisioning.plan_derived hplan).1
          refine ⟨rfl, ?_, ?_⟩
          · show state.table.find? plan.evmAddress = none
            rw [hevm, hfound]
          · show ∀ bound, state.table.evm? plan.nativeAddress = some bound →
              bound = plan.evmAddress
            rw [hevm]
            exact checkCollision_eq_ok.mp hpassed

theorem resolve_state (hash : Hash) (provisioner : Provisioner) (evm : Int) (state : State) :
    (resolve hash provisioner evm state).state = state := by
  suffices hkeeps : Keeps id (resolve hash provisioner evm) from hkeeps state
  refine Keeps.get.bind fun current => ?_
  split
  · exact Keeps.pure _
  · split
    · exact Keeps.fail _
    · dsimp only
      split
      · exact provision_state hash provisioner evm _ _
      · exact provision_state hash provisioner evm _ _

/-- A resolution that ends at once ends with the mapped address. -/
theorem resolve_mapped {provisioner : Provisioner} {native : Int}
    (hended : (resolve hash provisioner evm state).outcome = .ok (.mapped native)) :
    state.table.native? evm = some native := by
  unfold resolve at hended
  rw [get_bind] at hended
  cases hmapped : state.table.native? evm with
  | some current =>
      rw [hmapped] at hended
      cases hended
      rfl
  | none =>
      rw [hmapped] at hended
      dsimp only at hended
      split at hended
      · cases hended
      · split at hended
        · exact hmapped.symm.trans (provision_mapped hended)
        · exact hmapped.symm.trans (provision_mapped hended)

/-- The code of an address decides what a resolution asks the ledger for. -/
theorem resolve_planned {plan : DeploymentPlan}
    (hended : (resolve hash (.standard hash deployer) evm state).outcome = .ok (.planned plan)) :
    Provisioning.plan hash deployer ClassReferences.read state.references evm
        (if state.codeAt evm = "0x" then ClassKind.eoa.label else ClassKind.contractAccount.label)
        (state.codeAt evm) = .ok plan ∧
      state.table.Admits plan.mapping := by
  unfold resolve at hended
  rw [get_bind] at hended
  cases hmapped : state.table.native? evm with
  | some current =>
      rw [hmapped] at hended
      cases hended
  | none =>
      rw [hmapped] at hended
      dsimp only at hended
      split at hended
      · cases hended
      · split at hended
        · rename_i hcode
          rw [if_pos hcode, hcode]
          exact provision_planned hended
        · rename_i hcode
          rw [if_neg hcode]
          exact provision_planned hended

theorem compute_of_native? {native : Int} (provisioner : Provisioner)
    (hmapped : state.table.native? evm = some native) :
    compute provisioner evm state = ⟨.ok native, state, []⟩ := by
  unfold compute
  rw [get_bind, hmapped]
  rfl

theorem compute_state (provisioner : Provisioner) (evm : Int) (state : State) :
    (compute provisioner evm state).state = state := by
  suffices hkeeps : Keeps id (compute provisioner evm) from hkeeps state
  refine Keeps.get.bind fun current => ?_
  split
  · exact Keeps.pure _
  · exact Keeps.ofStop _

end Starting

/-! ## Finishing -/

/-- A plan that is concluded with an outcome goes on to the recording of the mapping that it ends
in. -/
theorem finish_of_concluded {deployer : Int} {plan : DeploymentPlan} {reply : HostReply}
    {outcome : DeploymentOutcome}
    (hended : (Provisioning.conclude hash plan reply state).outcome = .ok outcome) :
    (finish hash (.standard hash deployer) plan reply state).state =
        (record hash plan.mapping state).state ∧
      (finish hash (.standard hash deployer) plan reply state).outcome =
        (record hash plan.mapping state).outcome.map Mapping.nativeAddress := by
  have hnative : outcome.nativeAddress = plan.nativeAddress :=
    (Provisioning.conclude_eq_ok hended).2
  unfold finish
  dsimp only [Provisioner.standard]
  rw [outcome_bind, state_bind, state_attempt, Provisioning.conclude_state]
  unfold attempt
  dsimp only
  rw [hended]
  dsimp only
  rw [hnative]
  exact ⟨state_bind_of_keeps (fun _ => Keeps.pure _) state,
    outcome_bind_pure (record hash plan.mapping) Mapping.nativeAddress state⟩

/-- A plan that is concluded without an outcome stops without a change. -/
theorem finish_of_stopped {deployer : Int} {plan : DeploymentPlan} {reply : HostReply} {stop : Stop}
    (hended : (Provisioning.conclude hash plan reply state).outcome = .error stop) :
    (∃ stop, (finish hash (.standard hash deployer) plan reply state).outcome = .error stop) ∧
      (finish hash (.standard hash deployer) plan reply state).state = state := by
  unfold finish
  dsimp only [Provisioner.standard]
  rw [outcome_bind, state_bind, state_attempt, Provisioning.conclude_state]
  unfold attempt
  dsimp only
  rw [hended]
  cases stop with
  | escaped fault => exact ⟨⟨_, rfl⟩, rfl⟩
  | failed fault =>
      dsimp only
      refine ⟨?_, ?_⟩
      · cases Address.formatEvm hash plan.evmAddress with
        | ok text => exact ⟨_, rfl⟩
        | error fault => exact ⟨_, rfl⟩
      · exact Keeps.state_eq ((Keeps.orEscape _).bind fun _ => (Keeps.note _ _ _).bind fun _ =>
          Keeps.fail _) state

/-- What a reply comes to: a stop without a change, or, if it confirms the plan, the recording of
the mapping that the plan ends in. -/
theorem finish_cases (hash : Hash) (deployer : Int) (plan : DeploymentPlan) (reply : HostReply)
    (state : State) :
    ((∃ stop, (finish hash (.standard hash deployer) plan reply state).outcome = .error stop) ∧
      (finish hash (.standard hash deployer) plan reply state).state = state) ∨
    (reply.Confirms plan ∧
      (finish hash (.standard hash deployer) plan reply state).state =
        (record hash plan.mapping state).state ∧
      (finish hash (.standard hash deployer) plan reply state).outcome =
        (record hash plan.mapping state).outcome.map Mapping.nativeAddress) := by
  cases hended : (Provisioning.conclude hash plan reply state).outcome with
  | ok outcome => exact .inr ⟨(Provisioning.conclude_eq_ok hended).1, finish_of_concluded hended⟩
  | error stop => exact .inl (finish_of_stopped hended)

/-- Finishing leaves the state alone or, after a reply that confirms the plan, writes its mapping.
-/
theorem finish_state (hash : Hash) (deployer : Int) (plan : DeploymentPlan) (reply : HostReply)
    (state : State) :
    (finish hash (.standard hash deployer) plan reply state).state = state ∨
      (reply.Confirms plan ∧ state.table.Admits plan.mapping ∧
        (finish hash (.standard hash deployer) plan reply state).state =
          writing state plan.mapping) := by
  rcases finish_cases hash deployer plan reply state with ⟨-, hstate⟩ | ⟨hconfirms, hstate, -⟩
  · exact .inl hstate
  · rw [hstate]
    rcases record_state hash plan.mapping state with hkept | ⟨hadmits, hwritten⟩
    · exact .inl hkept
    · exact .inr ⟨hconfirms, hadmits, hwritten⟩

/-- With a confirming reply, a plan of the registry whose mapping the table still admits is finished
with its address, and the mapping is written. -/
theorem finish_of_admits {deployer : Int} {plan : DeploymentPlan} {reply : HostReply}
    (hderived : plan.Derived hash deployer) (hconfirms : reply.Confirms plan)
    (hadmits : state.table.Admits plan.mapping) :
    (finish hash (.standard hash deployer) plan reply state).outcome = .ok plan.nativeAddress ∧
      (finish hash (.standard hash deployer) plan reply state).state =
        writing state plan.mapping := by
  obtain ⟨outcome, hended⟩ := Provisioning.conclude_of_confirms hderived hconfirms state
  obtain ⟨hrecorded, hwritten⟩ : (record hash plan.mapping state).outcome = .ok plan.mapping ∧
      (record hash plan.mapping state).state = writing state plan.mapping :=
    record_of_admits hadmits hderived.evm hderived.native_isNative
  refine ⟨?_, ?_⟩
  · rw [(finish_of_concluded hended).2, hrecorded]
    rfl
  · rw [(finish_of_concluded hended).1, hwritten]

/-- A provisioning that is finished with an address leaves its EVM address mapped to it. -/
theorem native?_of_finish {deployer native : Int} {plan : DeploymentPlan} {reply : HostReply}
    (hended : (finish hash (.standard hash deployer) plan reply state).outcome = .ok native) :
    (finish hash (.standard hash deployer) plan reply state).state.table.native?
      plan.evmAddress = some native := by
  rcases finish_cases hash deployer plan reply state with ⟨⟨stop, houtcome⟩, -⟩ |
    ⟨-, hstate, houtcome⟩
  · rw [houtcome] at hended
    cases hended
  · rw [houtcome] at hended
    cases hrecorded : (record hash plan.mapping state).outcome with
    | error stop => rw [hrecorded] at hended; cases hended
    | ok mapping =>
        rw [hrecorded] at hended
        cases hended
        rw [hstate]
        exact AddressTable.native?_of_find? (find?_of_record hrecorded).1

/-! ## Registering -/

/-- The mapping that registers an account of the ledger for an EVM address. -/
def registration (account : DeployedAccount) (caller evm : Int) : Mapping where
  evmAddress := evm
  nativeAddress := caller
  kind := account.initialization.kind
  classReference := account.classReference

/-- What a registration comes to: a stop without a change, or, if the caller is the account that
was derived for the address and the ledger shows it, the recording of its mapping.  After that only
the text of an address out of range can still be a fault. -/
theorem register_cases (hash : Hash) (deployer caller evm : Int)
    (account : Option DeployedAccount) (state : State) :
    ((∃ stop, (register hash (.standard hash deployer) caller evm account state).outcome =
        .error stop) ∧
      (register hash (.standard hash deployer) caller evm account state).state = state) ∨
    (∃ deployed, account = some deployed ∧ state.table.find? evm = none ∧
      Provisioning.derive hash deployer ClassReferences.read state.references evm = .ok caller ∧
      (register hash (.standard hash deployer) caller evm account state).state =
        (record hash (registration deployed caller evm) state).state ∧
      ∀ native, (register hash (.standard hash deployer) caller evm account state).outcome =
          .ok native →
        ∃ mapping, (record hash (registration deployed caller evm) state).outcome = .ok mapping ∧
          mapping.nativeAddress = native) := by
  unfold register
  rw [get_bind]
  dsimp only [Provisioner.standard]
  cases hfound : state.table.find? evm with
  | some existing =>
      refine .inl ⟨?_, ?_⟩
      · rw [if_pos (by simp), outcome_bind]
        split
        · exact ⟨_, rfl⟩
        · exact ⟨_, rfl⟩
      · rw [if_pos (by simp), state_bind_of_keeps fun _ => Keeps.fail _]
        exact alreadyRegistered_state hash evm state
  | none =>
      rw [if_neg (by simp)]
      cases hderived :
          Provisioning.derive hash deployer ClassReferences.read state.references evm with
      | error stop => exact .inl ⟨⟨_, rfl⟩, rfl⟩
      | ok expected =>
          rw [ofStop_ok, pure_bind_run]
          by_cases hcaller : caller = expected
          · subst hcaller
            rw [if_neg (by simp)]
            cases account with
            | none =>
                refine .inl ⟨?_, ?_⟩
                · cases Address.formatNative caller with
                  | ok text => exact ⟨_, rfl⟩
                  | error fault => exact ⟨_, rfl⟩
                · exact Keeps.state_eq ((Keeps.orEscape _).bind fun _ => Keeps.fail _) state
            | some deployed =>
                refine .inr ⟨deployed, rfl, rfl, rfl, ?_, ?_⟩
                · exact state_bind_of_keeps (fun _ => (Keeps.orEscape _).bind fun _ =>
                    (Keeps.orEscape _).bind fun _ => (Keeps.note _ _ _).bind fun _ =>
                    Keeps.pure _) state
                · intro native hended
                  obtain ⟨mapping, hrecorded, hended⟩ := outcome_bind_eq_ok.mp hended
                  obtain ⟨_, -, hended⟩ := outcome_bind_eq_ok.mp hended
                  obtain ⟨_, -, hended⟩ := outcome_bind_eq_ok.mp hended
                  cases hended
                  exact ⟨mapping, hrecorded, rfl⟩
          · rw [if_pos hcaller]
            refine .inl ⟨?_, ?_⟩
            · cases Address.formatNative expected with
              | ok text => exact ⟨_, rfl⟩
              | error fault => exact ⟨_, rfl⟩
            · exact Keeps.state_eq ((Keeps.orEscape _).bind fun _ => Keeps.fail _) state

/-- Registering leaves the state alone or writes the mapping of the caller, which was derived for
the address and which the ledger shows. -/
theorem register_state (hash : Hash) (deployer caller evm : Int)
    (account : Option DeployedAccount) (state : State) :
    (register hash (.standard hash deployer) caller evm account state).state = state ∨
      ∃ deployed, account = some deployed ∧
        Provisioning.derive hash deployer ClassReferences.read state.references evm = .ok caller ∧
        state.table.Admits (registration deployed caller evm) ∧
        (register hash (.standard hash deployer) caller evm account state).state =
          writing state (registration deployed caller evm) := by
  rcases register_cases hash deployer caller evm account state with ⟨-, hstate⟩ |
    ⟨deployed, haccount, -, hderived, hstate, -⟩
  · exact .inl hstate
  · rw [hstate]
    rcases record_state hash (registration deployed caller evm) state with hkept |
      ⟨hadmits, hwritten⟩
    · exact .inl hkept
    · exact .inr ⟨deployed, haccount, hderived, hadmits, hwritten⟩

/-- A registration that ends with an address leaves its EVM address mapped to it. -/
theorem native?_of_register {deployer caller evm native : Int} {account : Option DeployedAccount}
    (hended : (register hash (.standard hash deployer) caller evm account state).outcome =
      .ok native) :
    (register hash (.standard hash deployer) caller evm account state).state.table.native? evm =
      some native := by
  rcases register_cases hash deployer caller evm account state with ⟨⟨stop, houtcome⟩, -⟩ |
    ⟨deployed, -, -, -, hstate, houtcome⟩
  · rw [houtcome] at hended
    cases hended
  · obtain ⟨mapping, hrecorded, hnative⟩ := houtcome native hended
    rw [hstate, ← hnative]
    exact AddressTable.native?_of_find? (find?_of_record hrecorded).1

end AccountRegistry.Addresses
