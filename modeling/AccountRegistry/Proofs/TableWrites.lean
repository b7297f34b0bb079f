import AccountRegistry.Proofs.Addresses
import AccountRegistry.Proofs.ValidState

/-!
# What a write to the address table comes to

In a valid state every operation on the address table either succeeds or is refused for one of a
few reasons, and a refusal changes nothing.  No fault escapes: whatever is derived, compared or
written to the log is in range, because the stored values are (`State.Valid`) and because the
arguments were checked first.

* `Recorded`, with `record_of_valid`: all that recording a mapping can come to.
* `finish_of_refuted`, `finish_of_confirms`: all that a reply can come to.
* `register_of_valid`: all that a registration can come to.
* `provision_stopsWithin`, `resolve_stopsWithin`, `compute_stopsWithin`: the refusals before the
  ledger is asked.
-/

namespace AccountRegistry

open Procedure

/-! ## Deriving and planning -/

namespace Provisioning

variable {hash : Hash} {deployer evm : Int} {store : ClassReferences}

theorem proxyReference_of_none (hmissing : store.reference? .proxy = none) :
    proxyReference ClassReferences.read store =
      .error (.refusal .classReferenceMissing [("kind", .text ClassKind.proxy.label)]) := by
  unfold proxyReference
  rw [ClassReferences.read_label, hmissing]
  rfl

/-- An EVM address under the proxy reference either has an account address or is refused. -/
theorem derive_stopsWithin (hdeployer : Address.IsNative deployer)
    (hreferences : ∀ kind reference, store.reference? kind = some reference →
      Address.IsClassReference reference) :
    StopsWithin [.invalidEvmAddress, .classReferenceMissing]
      (derive hash deployer ClassReferences.read store evm) := by
  by_cases hevm : Address.IsEvm evm
  · cases hreference : store.reference? .proxy with
    | some reference =>
        obtain ⟨native, hnative⟩ :=
          Derivation.accountAddress_of_range hash (hreferences _ _ hreference) hevm hdeployer
        rw [derive_eq_ok.mpr ⟨hevm, reference, hreference, hnative⟩]
        exact .ok native
    | none =>
        unfold derive
        rw [if_neg (not_not_intro hevm), proxyReference_of_none hreference]
        exact .failed rfl (by simp)
  · unfold derive
    rw [if_pos hevm]
    exact .failed rfl (by simp)

/-- Code for an EVM address under the proxy reference either has a plan or is refused. -/
theorem plan_stopsWithin (hash : Hash) (evm : Int) (hdeployer : Address.IsNative deployer)
    (hreferences : ∀ kind reference, store.reference? kind = some reference →
      Address.IsClassReference reference) (kind code : String) :
    StopsWithin [.invalidBytecode, .invalidEvmAddress, .classReferenceMissing]
      (plan hash deployer ClassReferences.read store evm kind code) := by
  by_cases hcode : Numeral.isHexString code = true
  · by_cases hevm : Address.IsEvm evm
    · cases hreference : store.reference? .proxy with
      | some reference =>
          obtain ⟨native, hnative⟩ :=
            Derivation.accountAddress_of_range hash (hreferences _ _ hreference) hevm hdeployer
          rw [plan_eq_ok.mpr ⟨hcode, hevm, reference, hreference, native, hnative, rfl⟩]
          exact .ok _
      | none =>
          unfold plan
          rw [if_neg (not_not_intro hcode), if_neg (not_not_intro hevm),
            proxyReference_of_none hreference]
          exact .failed rfl (by simp)
    · unfold plan
      rw [if_neg (not_not_intro hcode), if_pos hevm]
      exact .failed rfl (by simp)
  · unfold plan
    rw [if_pos hcode]
    exact .failed rfl (by simp)

/-- A reply that does not confirm a plan of the registry, but does not throw either, is refused as a
failed deployment or as a collision. -/
theorem conclude_of_refuted {plan : DeploymentPlan} {reply : HostReply}
    (hderived : plan.Derived hash deployer) (hreturned : ∀ fault, reply ≠ .threw fault)
    (hrefuted : ¬ reply.Confirms plan) (state : State) :
    ∃ fault, (conclude hash plan reply state).outcome = .error (.failed fault) ∧
      Stop.Within [.deploymentFailed, .derivationCollision] (.failed fault) := by
  obtain ⟨evmText, hevmText⟩ := hderived.evm.formatEvm hash
  obtain ⟨nativeText, hnativeText⟩ := hderived.native_isNative.formatNative
  cases reply with
  | threw fault => exact absurd rfl (hreturned fault)
  | refused fault =>
      have hnew : ¬ fault.isRefusal (some .alreadyDeployed) = true := hrefuted
      by_cases hfailed : fault.isRefusal (some .deploymentFailed) = true
      · have hcode : fault.code? = some .deploymentFailed := by
          cases fault <;> simp_all [Fault.isRefusal, Fault.code?]
        refine ⟨fault, ?_, .deploymentFailed, by simp, hcode⟩
        simp only [conclude, if_neg hnew, if_pos hfailed, fail_run]
      · refine ⟨.registry .deploymentFailed fault.message (.record [("evmAddress", .text evmText)]),
          ?_, .deploymentFailed, by simp, rfl⟩
        simp only [conclude, if_neg hnew, if_neg hfailed, hevmText, orEscape_ok, pure_bind_run,
          fail_run]
  | deployed address =>
      have hother : address ≠ plan.nativeAddress := hrefuted
      refine ⟨.refusal .derivationCollision
        [("evmAddress", .text evmText),
         ("expected", .text (Digits.decimal plan.nativeAddress)),
         ("actual", .text (Digits.decimal address))], ?_, .derivationCollision, by simp, rfl⟩
      simp only [conclude, if_pos hother, hevmText, hnativeText, orEscape_ok, pure_bind_run,
        outcome_note_bind, fail_run]

end Provisioning

/-! ## Recording -/

theorem AddressTable.Valid.isEvm_of_find? {table : AddressTable} (hvalid : table.Valid)
    {evm : Int} {mapping : Mapping} (hfound : table.find? evm = some mapping) :
    Address.IsEvm evm := by
  have hrange := hvalid.evm_range mapping (AddressTable.mem_of_find? hfound)
  rw [AddressTable.evmAddress_of_find? hfound] at hrange
  exact hrange

theorem AddressTable.Valid.isEvm_of_evm? {table : AddressTable} (hvalid : table.Valid)
    {evm native : Int} (hbound : table.evm? native = some evm) : Address.IsEvm evm := by
  obtain ⟨mapping, hfound, -⟩ :=
    AddressTable.native?_eq_some_iff.mp ((hvalid.inverse evm native).mpr hbound)
  exact hvalid.isEvm_of_find? hfound

namespace Addresses

variable {hash : Hash} {state : State} {evm : Int}

/-- A native address that is bound to another EVM address is refused as a collision. -/
theorem checkCollision_of_valid (hash : Hash) (hvalid : state.table.Valid)
    (hevm : Address.IsEvm evm) {native : Int} (hnative : Address.IsNative native) :
    (checkCollision hash evm native state).outcome = .ok () ∨
      (checkCollision hash evm native state).Refused .derivationCollision state := by
  unfold checkCollision
  rw [get_bind]
  cases hbound : state.table.evm? native with
  | none => exact .inl rfl
  | some bound =>
      by_cases hsame : bound = evm
      · exact .inl (by simp [hsame])
      · obtain ⟨evmText, hevmText⟩ := hevm.formatEvm hash
        obtain ⟨boundText, hboundText⟩ := (hvalid.isEvm_of_evm? hbound).formatEvm hash
        obtain ⟨nativeText, hnativeText⟩ := hnative.formatNative
        refine .inr ?_
        simp only [if_neg hsame, hevmText, hboundText, hnativeText, orEscape_ok, pure_bind_run]
        exact refused_note_bind (refused_of_fail rfl state)

theorem alreadyRegistered_bind_refused {α : Type} (hevm : Address.IsEvm evm) :
    ((alreadyRegistered hash evm >>= fail : Procedure State α) state).Refused .alreadyRegistered
      state := by
  obtain ⟨evmText, hevmText⟩ := hevm.formatEvm hash
  unfold alreadyRegistered
  rw [hevmText]
  exact refused_of_fail rfl state

/-- All that an attempt to record a mapping can come to, where `answer` is what a caller makes of
the mapping that is in the table afterwards.  A mapping that is there already is as good if it names
the same native address, and a reason to refuse if it names another one; a native address that is
bound elsewhere is a reason to refuse as well; otherwise the mapping is written. -/
inductive Recorded {α : Type} (state : State) (mapping : Mapping) (answer : Mapping → α)
    (ending : Ending State α) : Prop
  | converged (existing : Mapping)
      (hfound : state.table.find? mapping.evmAddress = some existing)
      (hsame : existing.nativeAddress = mapping.nativeAddress)
      (hanswer : ending.outcome = .ok (answer existing)) (hkept : ending.state = state)
  | overtaken (existing : Mapping)
      (hfound : state.table.find? mapping.evmAddress = some existing)
      (hother : existing.nativeAddress ≠ mapping.nativeAddress)
      (hrefused : ending.Refused .alreadyRegistered state)
  | occupied (hfree : state.table.find? mapping.evmAddress = none)
      (hrefused : ending.Refused .derivationCollision state)
  | written (hadmits : state.table.Admits mapping) (hanswer : ending.outcome = .ok (answer mapping))
      (hwritten : ending.state = writing state mapping)

/-- A caller that only makes something of the result comes to the same. -/
theorem Recorded.map {α β : Type} {mapping : Mapping} {answer : Mapping → α}
    {ending : Ending State α} {mapped : Ending State β} (f : α → β)
    (hrecorded : Recorded state mapping answer ending)
    (houtcome : mapped.outcome = ending.outcome.map f) (hstate : mapped.state = ending.state) :
    Recorded state mapping (fun found => f (answer found)) mapped := by
  cases hrecorded with
  | converged existing hfound hsame hanswer hkept =>
      refine .converged existing hfound hsame ?_ (hstate.trans hkept)
      rw [houtcome, hanswer]
      rfl
  | overtaken existing hfound hother hrefused =>
      exact .overtaken existing hfound hother (hrefused.map houtcome hstate)
  | occupied hfree hrefused => exact .occupied hfree (hrefused.map houtcome hstate)
  | written hadmits hanswer hwritten =>
      refine .written hadmits ?_ (hstate.trans hwritten)
      rw [houtcome, hanswer]
      rfl

/-- Recording a mapping with addresses in range lets no fault escape. -/
theorem record_of_valid (hash : Hash) (mapping : Mapping) (hvalid : state.table.Valid)
    (hevm : Address.IsEvm mapping.evmAddress) (hnative : Address.IsNative mapping.nativeAddress) :
    Recorded state mapping id (record hash mapping state) := by
  cases hfound : state.table.find? mapping.evmAddress with
  | some existing =>
      have hrecord : record hash mapping state =
          (if existing.nativeAddress = mapping.nativeAddress then pure existing
            else alreadyRegistered hash mapping.evmAddress >>= fail : Procedure State Mapping)
            state := by
        unfold record
        rw [get_bind, hfound]
      rw [hrecord]
      by_cases hsame : existing.nativeAddress = mapping.nativeAddress
      · rw [if_pos hsame]
        exact .converged existing hfound hsame rfl rfl
      · rw [if_neg hsame]
        exact .overtaken existing hfound hsame (alreadyRegistered_bind_refused hevm)
  | none =>
      -- the address is free, so the reverse table alone decides
      rcases checkCollision_of_valid hash hvalid hevm hnative with hpassed | hrefused
      · have hadmits : state.table.Admits mapping := ⟨hfound, checkCollision_eq_ok.mp hpassed⟩
        obtain ⟨hanswer, hwritten⟩ := record_of_admits hadmits hevm hnative
        exact .written hadmits hanswer hwritten
      · refine .occupied hfound ?_
        unfold record
        rw [get_bind, hfound]
        exact refused_bind _ hrefused

/-- A mapping with addresses in range that the table admits keeps the state valid. -/
theorem valid_writing (hvalid : state.Valid) {mapping : Mapping}
    (hadmits : state.table.Admits mapping) (hevm : Address.IsEvm mapping.evmAddress)
    (hnative : Address.IsNative mapping.nativeAddress) : (writing state mapping).Valid :=
  { hvalid with table := hvalid.table.add hadmits hevm hnative }

/-! ## Before the ledger is asked -/

section Starting

variable {deployer : Int}

/-- What a provisioning can be refused with before it asks the ledger. -/
def startCodes : List FaultCode :=
  [.invalidBytecode, .invalidEvmAddress, .classReferenceMissing, .derivationCollision]

theorem provision_stopsWithin (hdeployer : Address.IsNative deployer) (hvalid : state.Valid)
    (evm : Int) (kind code : String) :
    StopsWithin startCodes
      (provision hash (.standard hash deployer) evm kind code state).outcome := by
  unfold provision
  rw [get_bind]
  cases hfound : state.table.find? evm with
  | some existing =>
      -- a mapped address is in range, so that the note about another kind can be written
      obtain ⟨evmText, hevmText⟩ := (hvalid.table.isEvm_of_find? hfound).formatEvm hash
      dsimp only
      split
      · rw [hevmText]
        exact .ok _
      · exact .ok _
  | none =>
      have hplan := Provisioning.plan_stopsWithin hash evm hdeployer hvalid.references kind code
      refine .bind ((outcome_ofStop _ state).symm ▸ hplan.mono (by decide)) ?_
      intro plan hmade
      rw [outcome_ofStop] at hmade
      rw [state_ofStop]
      obtain ⟨rfl, hderived⟩ := Provisioning.plan_derived hmade
      refine .bind ?_ fun _ _ => .ok _
      rcases checkCollision_of_valid hash hvalid.table hderived.evm
        hderived.native_isNative with hpassed | hrefused
      · rw [hpassed]
        exact .ok ()
      · exact .of_refused hrefused (by decide)

theorem resolve_stopsWithin (hdeployer : Address.IsNative deployer) (hvalid : state.Valid)
    (evm : Int) :
    StopsWithin startCodes
      (resolve hash (.standard hash deployer) evm state).outcome := by
  unfold resolve
  rw [get_bind]
  cases state.table.native? evm with
  | some native => exact .ok _
  | none =>
      dsimp only
      split
      · exact .failed rfl (by decide)
      · split
        · exact provision_stopsWithin hdeployer hvalid evm _ _
        · exact provision_stopsWithin hdeployer hvalid evm _ _

theorem compute_stopsWithin (hdeployer : Address.IsNative deployer) (hvalid : state.Valid)
    (evm : Int) :
    StopsWithin [.invalidEvmAddress, .classReferenceMissing]
      (compute (.standard hash deployer) evm state).outcome := by
  unfold compute
  rw [get_bind]
  cases state.table.native? evm with
  | some native => exact .ok native
  | none =>
      dsimp only [Provisioner.standard]
      rw [outcome_ofStop]
      exact Provisioning.derive_stopsWithin hdeployer hvalid.references

end Starting

/-! ## Finishing and registering -/

/-- A reply that neither confirms a plan of the registry nor throws ends in a refusal. -/
theorem finish_of_refuted {deployer : Int} {plan : DeploymentPlan} {reply : HostReply}
    (hderived : plan.Derived hash deployer) (hreturned : ∀ fault, reply ≠ .threw fault)
    (hrefuted : ¬ reply.Confirms plan) :
    ∃ code ∈ [FaultCode.deploymentFailed, .derivationCollision],
      (finish hash (.standard hash deployer) plan reply state).Refused code state := by
  obtain ⟨fault, hended, code, hmem, hcode⟩ :=
    Provisioning.conclude_of_refuted hderived hreturned hrefuted state
  obtain ⟨evmText, hevmText⟩ := hderived.evm.formatEvm hash
  refine ⟨code, hmem, ⟨fault, ?_, hcode⟩, (finish_of_stopped hended).2⟩
  unfold finish
  dsimp only [Provisioner.standard]
  rw [outcome_bind, attempt_of_failed hended, hevmText]
  rfl

/-- A reply that confirms a plan of the registry leaves it to the table: an address that was mapped
meanwhile ends the call with its mapping if that names the planned address, and is refused
otherwise; an unmapped one is mapped, unless the planned address is bound elsewhere by now. -/
theorem finish_of_confirms (hvalid : state.table.Valid) {deployer : Int} {plan : DeploymentPlan}
    {reply : HostReply} (hderived : plan.Derived hash deployer)
    (hconfirms : reply.Confirms plan) :
    Recorded state plan.mapping Mapping.nativeAddress
      (finish hash (.standard hash deployer) plan reply state) := by
  obtain ⟨outcome, hended⟩ := Provisioning.conclude_of_confirms hderived hconfirms state
  obtain ⟨hstate, houtcome⟩ := finish_of_concluded hended
  exact (record_of_valid hash plan.mapping hvalid hderived.evm hderived.native_isNative).map
    Mapping.nativeAddress houtcome hstate

/-- All that a registration can come to: a refusal, or the mapping of the caller written. -/
theorem register_of_valid (hash : Hash) {deployer : Int} (hdeployer : Address.IsNative deployer)
    (hvalid : state.Valid) (caller evm : Int) (account : Option DeployedAccount) :
    let ending := register hash (.standard hash deployer) caller evm account state
    (∃ code ∈ [FaultCode.alreadyRegistered, .invalidEvmAddress, .classReferenceMissing,
        .unauthorized, .deploymentFailed, .derivationCollision], ending.Refused code state) ∨
    (∃ deployed, account = some deployed ∧ Address.IsEvm evm ∧ Address.IsNative caller ∧
      state.table.Admits (registration deployed caller evm) ∧ ending.outcome = .ok caller ∧
      ending.state = writing state (registration deployed caller evm)) := by
  intro ending
  simp only [ending, register, get_bind, Provisioner.standard]
  cases hfound : state.table.find? evm with
  | some existing =>
      refine .inl ⟨.alreadyRegistered, by simp, ?_⟩
      rw [if_pos (by simp)]
      exact alreadyRegistered_bind_refused (hvalid.table.isEvm_of_find? hfound)
  | none =>
      rw [if_neg (by simp)]
      cases hderived :
          Provisioning.derive hash deployer ClassReferences.read state.references evm with
      | error stop =>
          have hwithin := Provisioning.derive_stopsWithin hdeployer hvalid.references stop hderived
          obtain ⟨code, hmem, hrefused⟩ := refused_of_within (α := Int) hwithin state
          refine .inl ⟨code, ?_, refused_bind _ hrefused⟩
          exact List.mem_cons_of_mem _ (List.mem_append_left _ hmem)
      | ok expected =>
          obtain ⟨hevm, reference, hreference, hnative⟩ := Provisioning.derive_eq_ok.mp hderived
          have hexpected : Address.IsNative expected := Derivation.accountAddress_isNative hnative
          obtain ⟨expectedText, hexpectedText⟩ := hexpected.formatNative
          rw [ofStop_ok, pure_bind_run]
          -- from here on only the native address of the target may go on, which is in range
          by_cases hcaller : caller = expected
          · subst hcaller
            rw [if_neg (not_not_intro rfl)]
            cases account with
            | none =>
                refine .inl ⟨.deploymentFailed, by simp, ?_⟩
                simp only [hexpectedText, orEscape_ok]
                exact refused_of_fail rfl state
            | some deployed =>
                cases record_of_valid hash (registration deployed caller evm) hvalid.table hevm
                  hexpected with
                | converged _ hmapped | overtaken _ hmapped =>
                    exact absurd (hfound.symm.trans hmapped) nofun
                | occupied _ hrefused =>
                    exact .inl ⟨.derivationCollision, by simp, refused_bind _ hrefused⟩
                | written hadmits hrecorded hwritten =>
                    obtain ⟨evmText, hevmText⟩ := hevm.formatEvm hash
                    refine .inr ⟨deployed, rfl, hevm, hexpected, hadmits, ?_⟩
                    simp only [registration, id_eq] at hrecorded hwritten
                    simp only [bind_of_ok _ hrecorded, hwritten, hevmText, hexpectedText,
                      orEscape_ok]
                    exact ⟨rfl, rfl⟩
          · refine .inl ⟨.unauthorized, by simp, ?_⟩
            rw [if_pos hcaller, hexpectedText]
            exact refused_of_fail rfl state

end Addresses

end AccountRegistry
