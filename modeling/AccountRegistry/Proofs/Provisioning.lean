import AccountRegistry.Proofs.Address
import AccountRegistry.Registry.Provisioning

/-!
# What provisioning promises

A plan is inverted into the facts that it was made from: the EVM address is in range, the proxy
reference was set, and the request is the one whose address was derived (`DeploymentPlan.Derived`).
A reply *confirms* a plan if it names the planned address or says that an account lives there
already; only a confirmed plan ends with an outcome, and then with the planned address.

Planning, deriving and concluding never touch the state.
-/

namespace AccountRegistry

open Procedure

/-! ## Class references by kind -/

namespace ClassReferences

/-- The current reference of a kind. -/
def reference? (store : ClassReferences) (kind : ClassKind) : Option Int :=
  (store.slot kind).map ReferenceSlot.reference

theorem read_label (store : ClassReferences) (kind : ClassKind) :
    store.read kind.label =
      match store.reference? kind with
      | some reference => .ok reference
      | none => .error (notConfigured kind.label) := by
  have hkind : kindOf kind.label = .ok kind := by simp [kindOf]
  have hbind (next : ClassKind → Except Fault VersionedReference) :
      (Except.ok kind >>= next) = next kind := rfl
  unfold read readVersioned reference?
  rw [hkind, hbind]
  cases store.slot kind with
  | some slot => rfl
  | none => rfl

end ClassReferences

namespace Provisioning

/-- The proxy reference can be read exactly when it was set. -/
theorem proxyReference_eq_ok {store : ClassReferences} {reference : Int} :
    proxyReference ClassReferences.read store = .ok reference ↔
      store.reference? .proxy = some reference := by
  unfold proxyReference
  rw [ClassReferences.read_label]
  cases store.reference? .proxy with
  | some current => simp
  | none =>
      have hcode : (ClassReferences.notConfigured ClassKind.proxy.label).isRefusal
          (some .notConfigured) = true := rfl
      simp [hcode]

/-- The implementation that is asked for is the current reference of the kind. -/
theorem implementation_label (store : ClassReferences) (kind : ClassKind) :
    implementation ClassReferences.read store kind.label = store.reference? kind := by
  unfold implementation
  rw [ClassReferences.read_label]
  cases store.reference? kind with
  | some reference => rfl
  | none => rfl

theorem returned_eq_ok {α : Type} {result : Except Fault α} {value : α} :
    returned result = .ok value ↔ result = .ok value := by
  cases result with
  | ok given =>
      show (Except.ok given : Except Stop α) = .ok value ↔ _
      rw [Except.ok.injEq, Except.ok.injEq]
  | error fault => exact ⟨nofun, nofun⟩

theorem escaping_eq_ok {α : Type} {result : Except Fault α} {value : α} :
    escaping result = .ok value ↔ result = .ok value := by
  cases result with
  | ok given =>
      show (Except.ok given : Except Stop α) = .ok value ↔ _
      rw [Except.ok.injEq, Except.ok.injEq]
  | error fault => exact ⟨nofun, nofun⟩

end Provisioning

/-! ## Plans -/

/-- A plan as a registry with this deployer makes it: its EVM address is in range, and the request
is the one that the planned address was derived from. -/
structure DeploymentPlan.Derived (hash : Hash) (deployer : Int) (plan : DeploymentPlan) : Prop where
  evm : Address.IsEvm plan.evmAddress
  native : Derivation.accountAddress hash plan.request.classReference plan.evmAddress deployer =
    .ok plan.nativeAddress
  salt : plan.request.salt = plan.evmAddress
  arguments : plan.request.constructorArgs = Derivation.accountArguments deployer plan.evmAddress
  sender : plan.request.deployer = deployer

/-- The mapping that a plan ends in. -/
def DeploymentPlan.mapping (plan : DeploymentPlan) : Mapping where
  evmAddress := plan.evmAddress
  nativeAddress := plan.nativeAddress
  kind := plan.request.initialization.kind
  classReference := plan.request.classReference

theorem DeploymentPlan.Derived.native_isNative {hash : Hash} {deployer : Int}
    {plan : DeploymentPlan} (hplan : plan.Derived hash deployer) :
    Address.IsNative plan.nativeAddress :=
  Derivation.accountAddress_isNative hplan.native

namespace Provisioning

/-- A derivation succeeds for an EVM address in range under a proxy reference that was set. -/
theorem derive_eq_ok {hash : Hash} {deployer evm native : Int} {store : ClassReferences} :
    derive hash deployer ClassReferences.read store evm = .ok native ↔
      Address.IsEvm evm ∧ ∃ reference, store.reference? .proxy = some reference ∧
        Derivation.accountAddress hash reference evm deployer = .ok native := by
  unfold derive
  dsimp only
  by_cases hevm : Address.IsEvm evm
  · rw [if_neg (not_not_intro hevm), except_bind_eq_ok]
    simp only [returned_eq_ok, proxyReference_eq_ok, escaping_eq_ok, hevm, true_and]
  · rw [if_pos hevm]
    simp [throw, throwThe, MonadExceptOf.throw, bind, Except.bind, hevm]

/-- A plan is made for valid code, an EVM address in range and a proxy reference that was set. -/
theorem plan_eq_ok {hash : Hash} {deployer evm : Int} {store : ClassReferences}
    {kind code : String} {result : DeploymentPlan} :
    plan hash deployer ClassReferences.read store evm kind code = .ok result ↔
      Numeral.isHexString code = true ∧ Address.IsEvm evm ∧
        ∃ reference, store.reference? .proxy = some reference ∧
          ∃ native, Derivation.accountAddress hash reference evm deployer = .ok native ∧
            result = {
              evmAddress := evm
              nativeAddress := native
              request := {
                classReference := reference
                constructorArgs := Derivation.accountArguments deployer evm
                salt := evm
                deployer := deployer
                initialization :=
                  ⟨kind, implementation ClassReferences.read store kind, code⟩ } } := by
  unfold plan
  dsimp only
  -- the checks come in the order of the conjuncts, and each of them can only let the plan pass
  by_cases hcode : Numeral.isHexString code = true
  · rw [if_neg (not_not_intro hcode)]
    by_cases hevm : Address.IsEvm evm
    · rw [if_neg (not_not_intro hevm), except_bind_eq_ok]
      simp only [returned_eq_ok, proxyReference_eq_ok, except_bind_eq_ok, escaping_eq_ok, hcode,
        hevm, true_and, pure, Except.pure, Except.ok.injEq, @eq_comm _ _ result]
    · rw [if_pos hevm]
      simp [throw, throwThe, MonadExceptOf.throw, bind, Except.bind, hevm]
  · rw [if_pos hcode]
    simp [throw, throwThe, MonadExceptOf.throw, bind, Except.bind, hcode]

theorem plan_derived {hash : Hash} {deployer evm : Int} {store : ClassReferences}
    {kind code : String} {result : DeploymentPlan}
    (hplan : plan hash deployer ClassReferences.read store evm kind code = .ok result) :
    result.evmAddress = evm ∧ result.Derived hash deployer := by
  obtain ⟨-, hevm, reference, -, native, hnative, rfl⟩ := plan_eq_ok.mp hplan
  exact ⟨rfl, hevm, hnative, rfl, rfl, rfl⟩

end Provisioning

/-! ## Replies -/

/-- The reply says that the planned account is there: it was deployed at the planned address, or
the ledger held it before. -/
def HostReply.Confirms (plan : DeploymentPlan) : HostReply → Prop
  | .deployed address => address = plan.nativeAddress
  | .refused fault => fault.isRefusal (some .alreadyDeployed) = true
  | .threw _ => False

namespace Provisioning

/-- Only a reply that confirms the plan ends with an outcome, and that names the planned address.
-/
theorem conclude_eq_ok {hash : Hash} {plan : DeploymentPlan} {reply : HostReply} {state : State}
    {outcome : DeploymentOutcome}
    (hended : (conclude hash plan reply state).outcome = .ok outcome) :
    reply.Confirms plan ∧ outcome.nativeAddress = plan.nativeAddress := by
  cases reply with
  | threw fault => simp [conclude] at hended
  | refused fault =>
      simp only [conclude] at hended
      split at hended
      · rename_i hoccupied
        obtain ⟨_, -, hended⟩ := outcome_bind_eq_ok.mp hended
        obtain ⟨_, -, hended⟩ := outcome_bind_eq_ok.mp hended
        cases hended
        exact ⟨hoccupied, rfl⟩
      · split at hended
        · simp at hended
        · obtain ⟨_, -, hended⟩ := outcome_bind_eq_ok.mp hended
          simp at hended
  | deployed address =>
      simp only [conclude] at hended
      obtain ⟨_, -, hended⟩ := outcome_bind_eq_ok.mp hended
      split at hended
      · -- another address than the planned one is refused
        obtain ⟨_, -, hended⟩ := outcome_bind_eq_ok.mp hended
        simp at hended
      · rename_i hplanned
        have haddress : address = plan.nativeAddress := Decidable.not_not.mp hplanned
        obtain ⟨_, -, hended⟩ := outcome_bind_eq_ok.mp hended
        cases hended
        exact ⟨haddress, haddress⟩

/-- A reply that confirms a plan of the registry ends with an outcome: the addresses that are
written to the log are in range. -/
theorem conclude_of_confirms {hash : Hash} {deployer : Int} {plan : DeploymentPlan}
    {reply : HostReply} (hderived : plan.Derived hash deployer) (hconfirms : reply.Confirms plan)
    (state : State) : ∃ outcome, (conclude hash plan reply state).outcome = .ok outcome := by
  obtain ⟨evmText, hevmText⟩ := hderived.evm.formatEvm hash
  obtain ⟨nativeText, hnativeText⟩ := hderived.native_isNative.formatNative
  cases reply with
  | threw fault => cases hconfirms
  | refused fault =>
      have hoccupied : fault.isRefusal (some .alreadyDeployed) = true := hconfirms
      simp only [conclude, if_pos hoccupied, hevmText, hnativeText]
      exact ⟨_, rfl⟩
  | deployed address =>
      have haddress : address = plan.nativeAddress := hconfirms
      simp only [conclude, haddress, hevmText, hnativeText, ne_eq, not_true_eq_false, if_false]
      exact ⟨_, rfl⟩

theorem conclude_keeps {β : Type} {view : State → β} (hash : Hash) (plan : DeploymentPlan)
    (reply : HostReply) : Keeps view (conclude hash plan reply) := by
  cases reply with
  | threw fault => exact Keeps.stop _
  | refused fault =>
      simp only [conclude]
      split
      · exact (Keeps.orEscape _).bind fun _ => (Keeps.orEscape _).bind fun _ =>
          (Keeps.note _ _ _).bind fun _ => Keeps.pure _
      · split
        · exact Keeps.fail _
        · exact (Keeps.orEscape _).bind fun _ => Keeps.fail _
  | deployed address =>
      simp only [conclude]
      refine (Keeps.orEscape _).bind fun _ => ?_
      split
      · exact (Keeps.orEscape _).bind fun _ => (Keeps.note _ _ _).bind fun _ => Keeps.fail _
      · exact (Keeps.orEscape _).bind fun _ => (Keeps.note _ _ _).bind fun _ => Keeps.pure _

theorem conclude_state (hash : Hash) (plan : DeploymentPlan) (reply : HostReply) (state : State) :
    (conclude hash plan reply state).state = state :=
  Keeps.state_eq (conclude_keeps hash plan reply) state

end Provisioning

end AccountRegistry
