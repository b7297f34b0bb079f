import AccountRegistry.Proofs.GuardedCalls

/-!
# Before the ledger is asked

All that a provisioning does before it asks the ledger, said for the two cases of its address.  A
mapped address is answered from the table at once, whatever kind of account was asked for.  An
unmapped one is planned, and the plan is what the ledger is asked for, unless its native address
belongs to another EVM address.

The plan depends on the class references and the code alone (`Wiring.intends`), so that two states
that differ in their tables ask for the same as long as the tables admit it.
-/

namespace AccountRegistry

open Procedure

namespace Addresses

variable {state : State} {evm : Int}

/-! ## Mapped addresses -/

/-- The note about another kind of account cannot fail, as a mapped address is in range. -/
theorem provision_of_mapped (hash : Hash) (hvalid : state.table.Valid) {mapping : Mapping}
    (hmapped : state.table.find? evm = some mapping) (provisioner : Provisioner)
    (kind code : String) :
    (provision hash provisioner evm kind code state).outcome =
      .ok (.mapped mapping.nativeAddress) := by
  obtain ⟨evmText, hevmText⟩ := (hvalid.isEvm_of_find? hmapped).formatEvm hash
  unfold provision
  rw [get_bind, hmapped]
  dsimp only
  split
  · rw [hevmText]
    rfl
  · rfl

theorem resolve_of_mapped (hash : Hash) {mapping : Mapping}
    (hmapped : state.table.find? evm = some mapping) (provisioner : Provisioner) :
    (resolve hash provisioner evm state).outcome = .ok (.mapped mapping.nativeAddress) := by
  unfold resolve
  rw [get_bind, AddressTable.native?_of_find? hmapped]
  rfl

/-! ## Unmapped addresses -/

/-- An unmapped address is provisioned as planned, if the table admits what is planned. -/
theorem provision_of_unmapped {hash : Hash} {provisioner : Provisioner} {kind code : String}
    (hunmapped : state.table.find? evm = none)
    (hunbound : ∀ plan, provisioner.plan state.references evm kind code = .ok plan →
      ∀ bound, state.table.evm? plan.nativeAddress = some bound → bound = evm) :
    (provision hash provisioner evm kind code state).outcome =
      (provisioner.plan state.references evm kind code).map .planned := by
  unfold provision
  rw [get_bind, hunmapped]
  dsimp only
  cases hplan : provisioner.plan state.references evm kind code with
  | error stop => rfl
  | ok plan =>
      have hpassed : (checkCollision hash evm plan.nativeAddress state).outcome = .ok () :=
        checkCollision_eq_ok.mpr (hunbound plan hplan)
      rw [ofStop_ok, pure_bind_run, bind_of_ok _ hpassed]
      rfl

end Addresses

/-- The plan for resolving an EVM address: its range is checked first, and its code decides between
the two kinds of account. -/
def Wiring.intends (wiring : Wiring) (state : State) (evm : Int) : Except Stop DeploymentPlan :=
  if Address.IsEvm evm then
    wiring.provisioner.plan state.references evm
      (if state.codeAt evm = "0x" then ClassKind.eoa.label else ClassKind.contractAccount.label)
      (state.codeAt evm)
  else .error (.failed (Provisioning.notEvm evm))

/-- What is derived now is derived from the proxy reference of now. -/
theorem Wiring.accountAddress_of_derive {wiring : Wiring} (hstandard : wiring.Standard)
    {state : State} {reference evm native : Int}
    (hreference : state.references.reference? .proxy = some reference)
    (hderived : wiring.provisioner.derive state.references evm = .ok native) :
    Derivation.accountAddress wiring.hash reference evm wiring.identity.deployer = .ok native := by
  rw [hstandard] at hderived
  obtain ⟨-, current, hcurrent, hnative⟩ := Provisioning.derive_eq_ok.mp hderived
  rw [hreference] at hcurrent
  cases hcurrent
  exact hnative

/-- A plan that is intended is one of the registry, at the address that is derived now. -/
theorem Wiring.intends_eq_ok {wiring : Wiring} (hstandard : wiring.Standard) {state : State}
    {evm : Int} {plan : DeploymentPlan} (hintends : wiring.intends state evm = .ok plan) :
    plan.evmAddress = evm ∧ plan.Derived wiring.hash wiring.identity.deployer ∧
      state.references.reference? .proxy = some plan.request.classReference ∧
      wiring.provisioner.derive state.references evm = .ok plan.nativeAddress := by
  unfold Wiring.intends at hintends
  split at hintends
  · rw [hstandard] at hintends ⊢
    obtain ⟨hevm, hderived⟩ := Provisioning.plan_derived hintends
    obtain ⟨-, hrange, reference, hreference, native, hnative, hplan⟩ :=
      Provisioning.plan_eq_ok.mp hintends
    have hclass : plan.request.classReference = reference := by rw [hplan]
    refine ⟨hevm, hderived, hclass ▸ hreference, ?_⟩
    refine Provisioning.derive_eq_ok.mpr ⟨hrange, reference, hreference, ?_⟩
    rw [hnative, hplan]
  · cases hintends

/-- There is a plan for each address with valid code that can be derived now. -/
theorem Wiring.intends_of_derived {wiring : Wiring} (hstandard : wiring.Standard) {state : State}
    {reference evm native : Int} (hcode : Numeral.isHexString (state.codeAt evm) = true)
    (hevm : Address.IsEvm evm) (hreference : state.references.reference? .proxy = some reference)
    (hnative : Derivation.accountAddress wiring.hash reference evm wiring.identity.deployer =
      .ok native) :
    ∃ plan, wiring.intends state evm = .ok plan ∧ plan.nativeAddress = native := by
  unfold Wiring.intends
  rw [if_pos hevm, hstandard]
  exact ⟨_, Provisioning.plan_eq_ok.mpr ⟨hcode, hevm, reference, hreference, native, hnative, rfl⟩,
    rfl⟩

theorem Addresses.resolve_of_unmapped {wiring : Wiring} {state : State} {evm : Int}
    (hunmapped : state.table.find? evm = none)
    (hunbound : ∀ plan, wiring.intends state evm = .ok plan →
      ∀ bound, state.table.evm? plan.nativeAddress = some bound → bound = evm) :
    (resolve wiring.hash wiring.provisioner evm state).outcome =
      (wiring.intends state evm).map .planned := by
  unfold Wiring.intends at hunbound ⊢
  unfold resolve
  rw [get_bind, AddressTable.native?_eq_none_iff.mpr hunmapped]
  dsimp only
  by_cases hevm : Address.IsEvm evm
  · rw [if_neg (not_not_intro hevm), if_pos hevm]
    rw [if_pos hevm] at hunbound
    by_cases hcode : state.codeAt evm = "0x"
    · rw [if_pos hcode, if_pos hcode, hcode]
      rw [if_pos hcode, hcode] at hunbound
      exact provision_of_unmapped hunmapped hunbound
    · rw [if_neg hcode, if_neg hcode]
      rw [if_neg hcode] at hunbound
      exact provision_of_unmapped hunmapped hunbound
  · rw [if_pos hevm, if_neg hevm]
    rfl

namespace Registry

variable {wiring : Wiring} {state : State} {evm : Int}

theorem begin_resolve_of_mapped {mapping : Mapping}
    (hmapped : state.table.find? evm = some mapping) :
    (begin wiring (.resolve evm) state).outcome =
      .ok (.finished (.integer mapping.nativeAddress)) := by
  have hended := Addresses.resolve_of_mapped wiring.hash hmapped wiring.provisioner
  simp only [begin, ofStart, bind_of_ok _ hended, pure_run]

/-- A provisioning of a mapped address, or a computation of its native address, returns the one that
it is mapped to. -/
theorem begin_of_mapped (hvalid : state.table.Valid) {mapping : Mapping}
    (hmapped : state.table.find? evm = some mapping) {call : Call}
    (hcall : call.provisions? = some evm ∨ call = .compute evm) :
    (begin wiring call state).outcome = .ok (.finished (.integer mapping.nativeAddress)) ∧
      (begin wiring call state).state = state := by
  rcases hcall with hprovisions | rfl
  · refine ⟨?_, begin_provisions_state hprovisions⟩
    cases call with
    | resolve target =>
        cases hprovisions
        exact begin_resolve_of_mapped hmapped
    | provisionEoa target | provisionContract target code =>
        cases hprovisions
        have hended := Addresses.provision_of_mapped wiring.hash hvalid hmapped wiring.provisioner
        simp only [begin, ofStart, bind_of_ok _ (hended _ _), pure_run]
    | _ => cases hprovisions
  · have hended : Addresses.compute wiring.provisioner evm state = _ :=
      Addresses.compute_of_native? _ (AddressTable.native?_of_find? hmapped)
    have houtcome := congrArg Ending.outcome hended
    simp only [begin, finishing, bind_of_ok _ houtcome, hended, pure_run, and_self]

/-- A resolution of an unmapped address asks the ledger for the plan that it intends, or is refused
for the reason why there is none, unless the planned address belongs to another EVM address. -/
theorem begin_resolve_of_unmapped (hunmapped : state.table.find? evm = none)
    (hunbound : ∀ plan, wiring.intends state evm = .ok plan →
      ∀ bound, state.table.evm? plan.nativeAddress = some bound → bound = evm) :
    (begin wiring (.resolve evm) state).outcome = (wiring.intends state evm).map .asks := by
  have hended := Addresses.resolve_of_unmapped hunmapped hunbound
  cases hintends : wiring.intends state evm with
  | error stop =>
      rw [hintends] at hended
      simp only [begin, ofStart, bind_of_error _ hended]
      rfl
  | ok plan =>
      rw [hintends] at hended
      simp only [begin, ofStart, bind_of_ok _ hended]
      rfl

theorem begin_resolve_asks (hunmapped : state.table.find? evm = none) {plan : DeploymentPlan}
    (hintends : wiring.intends state evm = .ok plan)
    (hunbound : ∀ bound, state.table.evm? plan.nativeAddress = some bound → bound = evm) :
    (begin wiring (.resolve evm) state).outcome = .ok (.asks plan) := by
  rw [begin_resolve_of_unmapped hunmapped, hintends]
  · rfl
  · intro other hother
    cases hintends.symm.trans hother
    exact hunbound

theorem begin_resolve_stops (hunmapped : state.table.find? evm = none) {stop : Stop}
    (hintends : wiring.intends state evm = .error stop) :
    (begin wiring (.resolve evm) state).outcome = .error stop := by
  rw [begin_resolve_of_unmapped hunmapped, hintends]
  · rfl
  · intro plan hplan
    cases hintends.symm.trans hplan

end Registry

end AccountRegistry
