import AccountRegistry.Proofs.Agreement
import AccountRegistry.Proofs.GuardedCalls

/-!
# Registration by the account itself

`register` is the one call by which anybody but the registry can have a mapping written.  What it
takes is `Registrable`: the caller is the account that the EVM address would be provisioned at now,
and the ledger holds it.

* `Addresses.register_of_registrable`, `Addresses.register_of_not_registrable`: all that a
  registration comes to, over any answer of the ledger.
* `registrations_unmapped`, `registrations_nodup`: a registered address was unmapped until then, so
  that a run registers it once.
* `registration_is_for_the_account_itself`: what follows for every run of a created registry.
-/

namespace AccountRegistry

open Procedure

/-- The EVM address that is registered, where the effect is that one is. -/
def Effect.registered? : Effect → Option Int
  | .ended (.register _ evm _) (.ok _) => some evm
  | _ => none

theorem Effect.registered?_eq_some {effect : Effect} {evm : Int} :
    effect.registered? = some evm ↔
      ∃ caller account result, effect = .ended (.register caller evm account) (.ok result) := by
  constructor
  · intro hregistered
    unfold registered? at hregistered
    split at hregistered
    · cases hregistered
      exact ⟨_, _, _, rfl⟩
    · cases hregistered
  · rintro ⟨caller, account, result, rfl⟩
    rfl

/-- The caller can be registered for the EVM address, where `account` is what the ledger holds at
the caller's address: nothing is mapped yet, the caller is the native address that is derived from
the proxy reference of now, it is deployed, and it belongs to no other EVM address. -/
structure Registrable (wiring : Wiring) (state : State) (caller evm : Int)
    (account : Option DeployedAccount) : Prop where
  unmapped : state.table.find? evm = none
  range : 0 ≤ evm ∧ evm < Int.pow 2 160
  derived : ∃ reference, state.references.reference? .proxy = some reference ∧
    Derivation.accountAddress wiring.hash reference evm wiring.identity.deployer = .ok caller
  deployed : ∃ found, account = some found
  unbound : ∀ bound, state.table.evm? caller = some bound → bound = evm

/-! ## One registration -/

namespace Addresses

variable {wiring : Wiring} {state : State} {caller evm : Int} {account : Option DeployedAccount}

/-- A registrable caller is registered: none of the checks can fail, and neither can the write. -/
theorem register_of_registrable (hstandard : wiring.Standard) {found : DeployedAccount}
    (hregistrable : Registrable wiring state caller evm (some found)) :
    (register wiring.hash wiring.provisioner caller evm (some found) state).outcome =
        .ok caller ∧
      (register wiring.hash wiring.provisioner caller evm (some found) state).state =
        writing state (registration found caller evm) := by
  obtain ⟨hunmapped, hrange, ⟨reference, hreference, hnative⟩, -, hunbound⟩ := hregistrable
  have hevm : Address.IsEvm evm := Address.isEvm_iff.mpr hrange
  have hcaller : Address.IsNative caller := Derivation.accountAddress_isNative hnative
  have hderived : Provisioning.derive wiring.hash wiring.identity.deployer ClassReferences.read
      state.references evm = .ok caller :=
    Provisioning.derive_eq_ok.mpr ⟨hevm, reference, hreference, hnative⟩
  obtain ⟨hrecorded, hwritten⟩ :
      (record wiring.hash (registration found caller evm) state).outcome =
        .ok (registration found caller evm) ∧
      (record wiring.hash (registration found caller evm) state).state =
        writing state (registration found caller evm) :=
    record_of_admits ⟨hunmapped, hunbound⟩ hevm hcaller
  obtain ⟨evmText, hevmText⟩ := hevm.formatEvm wiring.hash
  obtain ⟨callerText, hcallerText⟩ := hcaller.formatNative
  rw [hstandard]
  simp only [registration] at hrecorded hwritten
  simp only [register, Provisioner.standard, get_bind, hunmapped, Option.isSome_none,
    Bool.false_eq_true, if_false, hderived, ofStop_ok, pure_bind_run, ne_eq, not_true_eq_false,
    bind_of_ok _ hrecorded, hwritten, hevmText, hcallerText, orEscape_ok]
  exact ⟨rfl, rfl⟩

/-- Nobody else is registered, and nothing is written for them. -/
theorem register_of_not_registrable (hstandard : wiring.Standard)
    (hdeployer : Address.IsNative wiring.identity.deployer) (hvalid : state.Valid)
    (hregistrable : ¬ Registrable wiring state caller evm account) :
    (∃ fault, (register wiring.hash wiring.provisioner caller evm account state).outcome =
        .error (.failed fault)) ∧
      (register wiring.hash wiring.provisioner caller evm account state).state = state := by
  rw [hstandard]
  rcases register_of_valid wiring.hash hdeployer hvalid caller evm account with
    ⟨code, -, ⟨fault, hended, -⟩, hkept⟩ |
    ⟨found, haccount, hevm, -, hadmits, hended, -⟩
  · exact ⟨⟨fault, hended⟩, hkept⟩
  · -- a registration that ends with a result has passed every check
    rcases register_cases wiring.hash wiring.identity.deployer caller evm account state with
      ⟨⟨stop, hstopped⟩, -⟩ | ⟨-, -, hunmapped, hderived, -, -⟩
    · rw [hstopped] at hended
      cases hended
    · obtain ⟨-, hproxy⟩ := Provisioning.derive_eq_ok.mp hderived
      exact absurd
        ⟨hunmapped, Address.isEvm_iff.mp hevm, hproxy, ⟨found, haccount⟩, hadmits.unbound⟩
        hregistrable

end Addresses

namespace Machine

variable {wiring : Wiring} {machine : Machine} {caller evm : Int}
  {account : Option DeployedAccount}

theorem step_register_of_registrable (hstandard : wiring.Standard) {found : DeployedAccount}
    (hregistrable : Registrable wiring machine.state caller evm (some found)) :
    (machine.step wiring (.call (.register caller evm (some found)))).machine =
        ⟨Addresses.writing machine.state (Addresses.registration found caller evm),
          machine.waiting⟩ ∧
      (machine.step wiring (.call (.register caller evm (some found)))).effect =
        .ended (.register caller evm (some found)) (.ok (.integer caller)) := by
  obtain ⟨hended, hwritten⟩ := Addresses.register_of_registrable hstandard hregistrable
  have hbegun : (Registry.begin wiring (.register caller evm (some found)) machine.state).outcome =
      .ok (.finished (.integer caller)) := Registry.finishing_ok hended Answer.integer
  have hstate : (Registry.begin wiring (.register caller evm (some found)) machine.state).state =
      Addresses.writing machine.state (Addresses.registration found caller evm) :=
    (Registry.finishing_state _ _ _).trans hwritten
  obtain ⟨hmachine, heffect⟩ := step_of_finished hbegun
  exact ⟨by rw [hmachine, hstate], heffect⟩

theorem step_register_of_not_registrable (hstandard : wiring.Standard)
    (hdeployer : Address.IsNative wiring.identity.deployer) (hvalid : machine.state.Valid)
    (hregistrable : ¬ Registrable wiring machine.state caller evm account) :
    (machine.step wiring (.call (.register caller evm account))).machine = machine ∧
      ∃ fault, (machine.step wiring (.call (.register caller evm account))).effect =
        .ended (.register caller evm account) (.error (.failed fault)) := by
  obtain ⟨⟨fault, hended⟩, hkept⟩ :=
    Addresses.register_of_not_registrable hstandard hdeployer hvalid hregistrable
  have hbegun : (Registry.begin wiring (.register caller evm account) machine.state).outcome =
      .error (.failed fault) := Registry.finishing_error hended Answer.integer
  have hstate : (Registry.begin wiring (.register caller evm account) machine.state).state =
      machine.state := (Registry.finishing_state _ _ _).trans hkept
  obtain ⟨hmachine, heffect⟩ := step_of_stopped hbegun
  exact ⟨by rw [hmachine, hstate], fault, heffect⟩

/-! ## The registrations of a run -/

/-- The EVM addresses that a run registers, in their order. -/
def registrations (wiring : Wiring) (machine : Machine) (events : List Event) : List Int :=
  (effects wiring machine events).filterMap Effect.registered?

/-- An event registers an address that is unmapped until then and mapped from then on. -/
theorem unmapped_of_registered (hstandard : wiring.Standard)
    (hdeployer : Address.IsNative wiring.identity.deployer) (hvalid : machine.Valid wiring)
    {event : Event} (hregistered : (machine.step wiring event).effect.registered? = some evm) :
    machine.state.table.find? evm = none ∧
      (machine.step wiring event).machine.state.table.find? evm ≠ none := by
  obtain ⟨caller, account, result, hended⟩ := Effect.registered?_eq_some.mp hregistered
  cases event with
  | reply reply =>
      -- no registration waits for the ledger
      obtain ⟨plan, rest, hwaiting, -⟩ := ended_of_step_reply hended
      have hplanned := hvalid.coherent.latest hwaiting nofun
      cases hplanned.1
  | call call =>
      obtain ⟨rfl, -⟩ := ended_of_step_call hended
      by_cases hregistrable : Registrable wiring machine.state caller evm account
      · obtain ⟨found, rfl⟩ := hregistrable.deployed
        obtain ⟨hmachine, -⟩ := step_register_of_registrable hstandard hregistrable
        refine ⟨hregistrable.unmapped, ?_⟩
        rw [hmachine, Addresses.table_writing]
        exact ne_of_eq_of_ne
          (AddressTable.find?_add_self _ (Addresses.registration found caller evm))
          (Option.some_ne_none _)
      · obtain ⟨-, fault, hfailed⟩ :=
          step_register_of_not_registrable hstandard hdeployer hvalid.state hregistrable
        rw [hended] at hfailed
        cases hfailed

/-- An address that is mapped is not registered any more. -/
theorem registrations_unmapped (hstandard : wiring.Standard)
    (hdeployer : Address.IsNative wiring.identity.deployer) (hvalid : machine.Valid wiring)
    {events : List Event} (hmem : evm ∈ machine.registrations wiring events) :
    machine.state.table.find? evm = none := by
  obtain ⟨effect, heffect, hregistered⟩ := List.mem_filterMap.mp hmem
  obtain ⟨before, event, after, rfl, rfl⟩ := mem_effects.mp heffect
  obtain ⟨hunmapped, -⟩ := unmapped_of_registered hstandard hdeployer
    (hvalid.run hstandard hdeployer before) hregistered
  -- a mapping would still be there when the address is registered
  cases hfound : machine.state.table.find? evm with
  | none => rfl
  | some mapping =>
      rw [run_extends hstandard machine before evm mapping hfound] at hunmapped
      cases hunmapped

theorem registrations_nodup (hstandard : wiring.Standard)
    (hdeployer : Address.IsNative wiring.identity.deployer) (hvalid : machine.Valid wiring)
    (events : List Event) : (machine.registrations wiring events).Nodup := by
  induction events generalizing machine with
  | nil => exact List.nodup_nil
  | cons event rest ih =>
      have hnext := hvalid.step hstandard hdeployer event
      have hrest := ih hnext
      unfold registrations at hrest ⊢
      rw [effects]
      cases hregistered : (machine.step wiring event).effect.registered? with
      | none => rwa [List.filterMap_cons_none hregistered]
      | some evm =>
          rw [List.filterMap_cons_some hregistered]
          refine List.nodup_cons.mpr ⟨fun hagain => ?_, hrest⟩
          -- what was registered first is mapped when it would be registered again
          obtain ⟨-, hmapped⟩ := unmapped_of_registered hstandard hdeployer hvalid hregistered
          exact hmapped (registrations_unmapped hstandard hdeployer hnext hagain)

/-- In every state that a run leads to, over any ledger: a registration succeeds exactly if the
caller is registrable; it then returns the caller, and the mapping of the caller as the ledger shows
it is all that is written; otherwise it is refused and nothing changes.  It never asks the ledger
for a deployment, what it maps to the EVM address is the caller, and a run registers no address
twice. -/
theorem registration_is_for_the_account_itself {hash : Hash} {setup : Setup} {launched : Launched}
    (hcreated : Launched.create hash setup = .ok launched) (events : List Event) :
    let wiring := launched.wiring
    let start := idle launched.state
    let machine := start.run wiring events
    (∀ caller evm account,
      let call := Call.register caller evm account
      let step := machine.step wiring (.call call)
      ((∃ result, step.effect = .ended call (.ok result)) ↔
        Registrable wiring machine.state caller evm account) ∧
      (∀ found, account = some found → Registrable wiring machine.state caller evm account →
        step.effect = .ended call (.ok (.integer caller)) ∧
        step.machine.waiting = machine.waiting ∧
        step.machine.state = { machine.state with table := {
          mappings := ⟨evm, caller, found.initialization.kind, found.classReference⟩ ::
            machine.state.table.mappings
          reverse := (caller, evm) :: machine.state.table.reverse } }) ∧
      (¬ Registrable wiring machine.state caller evm account →
        (∃ fault, step.effect = .ended call (.error (.failed fault))) ∧
        step.machine = machine) ∧
      (∀ plan, step.effect ≠ .asked call plan) ∧
      ∀ mapping ∈ step.machine.state.table.mappings,
        mapping ∈ machine.state.table.mappings ∨
          mapping.evmAddress = evm ∧ mapping.nativeAddress = caller) ∧
    ∀ evm, (start.registrations wiring events).count evm ≤ 1 := by
  intro wiring start machine
  have hstandard : wiring.Standard := Launched.create_standard hcreated
  have hdeployer : Address.IsNative wiring.identity.deployer := Launched.create_deployer hcreated
  have hvalid : machine.Valid wiring := .reached hcreated events
  refine ⟨fun caller evm account => ?_, fun evm => ?_⟩
  · intro call step
    by_cases hregistrable : Registrable wiring machine.state caller evm account
    · obtain ⟨found, rfl⟩ := hregistrable.deployed
      obtain ⟨hmachine, heffect⟩ := step_register_of_registrable hstandard hregistrable
      refine ⟨⟨fun _ => hregistrable, fun _ => ⟨_, heffect⟩⟩, ?_, absurd hregistrable, ?_, ?_⟩
      · rintro _ ⟨⟩ -
        rw [hmachine]
        exact ⟨heffect, rfl, rfl⟩
      · intro plan hasked
        cases heffect.symm.trans hasked
      · intro mapping hmem
        rw [hmachine] at hmem
        rcases List.mem_cons.mp hmem with rfl | hmem
        · exact .inr ⟨rfl, rfl⟩
        · exact .inl hmem
    · obtain ⟨hmachine, fault, heffect⟩ :=
        step_register_of_not_registrable hstandard hdeployer hvalid.state hregistrable
      refine ⟨⟨?_, fun hother => absurd hother hregistrable⟩,
        fun _ _ hother => absurd hother hregistrable,
        fun _ => ⟨⟨fault, heffect⟩, hmachine⟩, ?_, ?_⟩
      · rintro ⟨result, hended⟩
        cases heffect.symm.trans hended
      · intro plan hasked
        cases heffect.symm.trans hasked
      · intro mapping hmem
        rw [hmachine] at hmem
        exact .inl hmem
  · exact List.nodup_iff_count_le_one.mp
      (registrations_nodup hstandard hdeployer (.create hcreated) events) evm

/-- The account of address 7 lives at 7 and was deployed under reference 9.  Neither another caller
nor an account that is not deployed is registered; then the account registers itself, once. -/
theorem registration_is_for_the_account_itself_once :
    let wiring := (Launched.small .toSalt).wiring
    let start := idle (Launched.small .toSalt).state
    let found : DeployedAccount := ⟨7, 9, ⟨"eoa", none, "0x"⟩⟩
    let before : List Event := [.call (.setClassReference 2 "proxy" 9)]
    let machine := start.run wiring before
    (machine.step wiring (.call (.register 8 7 (some found)))).machine = machine ∧
    (machine.step wiring (.call (.register 7 7 none))).machine = machine ∧
    (machine.step wiring (.call (.register 7 7 (some found)))).effect =
      .ended (.register 7 7 (some found)) (.ok (.integer 7)) ∧
    (start.registrations wiring (before ++ [.call (.register 7 7 (some found)),
      .call (.register 7 7 (some found))])).count 7 = 1 := by
  intro wiring start found before machine
  have hcreated : Launched.create .toSalt .small = .ok (.small .toSalt) :=
    Launched.create_small .toSalt
  have hderived : Derivation.accountAddress .toSalt 9 7 1 = .ok 7 :=
    except_eq_ok_of_toOption (by decide +kernel)
  have hreference : machine.state.references.reference? .proxy = some 9 := by decide +kernel
  have hregistrable : Registrable wiring machine.state 7 7 (some found) :=
    ⟨by decide +kernel, by decide, ⟨9, hreference, hderived⟩, ⟨found, rfl⟩, by decide +kernel⟩
  obtain ⟨hcalls, -⟩ := registration_is_for_the_account_itself hcreated before
  refine ⟨?_, ?_, ?_, by decide +kernel⟩
  · obtain ⟨-, -, hrefused, -, -⟩ := hcalls 8 7 (some found)
    refine (hrefused fun hother => ?_).2
    obtain ⟨reference, hsame, hnative⟩ := hother.derived
    cases hreference.symm.trans hsame
    cases hderived.symm.trans hnative
  · obtain ⟨-, -, hrefused, -, -⟩ := hcalls 7 7 none
    refine (hrefused fun hother => ?_).2
    obtain ⟨_, hmissing⟩ := hother.deployed
    cases hmissing
  · obtain ⟨-, hwritten, -, -, -⟩ := hcalls 7 7 (some found)
    exact (hwritten found rfl hregistrable).1

end Machine

end AccountRegistry
