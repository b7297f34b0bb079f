import AccountRegistry.Proofs.Completion

/-!
# The outcome of a provisioning

Over the ledger in memory a provisioning comes to one of a few outcomes, and the first case that
applies decides.  `Provisioned` is the list of the cases, each with the outcome and the whole system
afterwards; the hypotheses of a case say that none of the earlier ones applies.

* `Provisioned.completes`: what is listed is what the completed call comes to.
* `Provisioned.exists_outcome`: one of the cases applies in every valid state.
* `System.first_case_decides`: so the list is the outcome of `provisionContract` and of
  `provisionEoa`, and `Resolved` is that of `resolve`, which looks at the range of the address
  before it looks at the code.

No case says anything about the answer of the ledger but what its rule and its accounts decide.
-/

namespace AccountRegistry

open Procedure

/-! ## Cases -/

/-- The fault of code that is not hexadecimal. -/
def Provisioning.notHex (evm : Int) : Fault :=
  .refusal .invalidBytecode [("evmAddress", .text (Digits.decimal evm))]

/-- The fault of a registry whose proxy reference was never set. -/
def Provisioning.noProxy : Fault :=
  .refusal .classReferenceMissing [("kind", .text ClassKind.proxy.label)]

/-- The fault of a native address that belongs to another EVM address. -/
def Addresses.collision (evmText boundText nativeText : String) : Fault :=
  .refusal .derivationCollision [("evmAddress", .text evmText),
    ("existingEvmAddress", .text boundText), ("nativeAddress", .text nativeText)]

/-- What the ledger is asked for to deploy the account of an EVM address. -/
def Wiring.request (wiring : Wiring) (store : ClassReferences) (reference evm : Int)
    (kind : ClassKind) (code : String) : DeployRequest where
  classReference := reference
  constructorArgs := Derivation.accountArguments wiring.identity.deployer evm
  salt := evm
  deployer := wiring.identity.deployer
  initialization := ⟨kind.label, store.reference? kind, code⟩

/-- The ledger after a request for an account at a place that its rule lets pass: the account is
added if there is none at that place yet. -/
def Ledger.served (ledger : Ledger) (request : DeployRequest) (place : Int) : Ledger :=
  if ledger.find? place = none then
    { ledger with
      accounts := account request place :: ledger.accounts
      requests := ledger.requests + 1 }
  else ledger.counted

/-- An unmapped EVM address with code can be planned at a native address, under a proxy
reference. -/
structure Plannable (wiring : Wiring) (state : State) (evm : Int) (code : String)
    (reference native : Int) : Prop where
  unmapped : state.table.find? evm = none
  isHex : Numeral.isHexString code = true
  isEvm : Address.IsEvm evm
  referenced : state.references.reference? .proxy = some reference
  derived : Derivation.accountAddress wiring.hash reference evm wiring.identity.deployer =
    .ok native

/-- What provisioning an EVM address as a kind of account with code comes to, in the order in which
the cases are decided: a native address or a fault, and the system afterwards. -/
inductive Provisioned (wiring : Wiring) (system : System) (evm : Int) (kind : ClassKind)
    (code : String) : Except Fault Int → System → Prop
  | mapped {mapping : Mapping}
      (hmapped : system.machine.state.table.find? evm = some mapping) :
      Provisioned wiring system evm kind code (.ok mapping.nativeAddress) system
  | invalidCode (hunmapped : system.machine.state.table.find? evm = none)
      (hcode : Numeral.isHexString code = false) :
      Provisioned wiring system evm kind code (.error (Provisioning.notHex evm)) system
  | outOfRange (hunmapped : system.machine.state.table.find? evm = none)
      (hcode : Numeral.isHexString code = true) (hevm : ¬ Address.IsEvm evm) :
      Provisioned wiring system evm kind code (.error (Provisioning.notEvm evm)) system
  | unreferenced (hunmapped : system.machine.state.table.find? evm = none)
      (hcode : Numeral.isHexString code = true) (hevm : Address.IsEvm evm)
      (hmissing : system.machine.state.references.reference? .proxy = none) :
      Provisioned wiring system evm kind code (.error Provisioning.noProxy) system
  | colliding {reference native bound : Int} {evmText boundText nativeText : String}
      (hplannable : Plannable wiring system.machine.state evm code reference native)
      (hbound : system.machine.state.table.evm? native = some bound) (hother : bound ≠ evm)
      (hevmText : Address.formatEvm wiring.hash evm = .ok evmText)
      (hboundText : Address.formatEvm wiring.hash bound = .ok boundText)
      (hnativeText : Address.formatNative native = .ok nativeText) :
      Provisioned wiring system evm kind code
        (.error (Addresses.collision evmText boundText nativeText)) system
  | rejected {reference native : Int} {reason : String}
      (hplannable : Plannable wiring system.machine.state evm code reference native)
      (hunbound : ∀ bound, system.machine.state.table.evm? native = some bound → bound = evm)
      (hrejected : system.ledger.rejection
        (wiring.request system.machine.state.references reference evm kind code) = some reason) :
      Provisioned wiring system evm kind code
        (.error (Ledger.rejected
          (wiring.request system.machine.state.references reference evm kind code) reason))
        ⟨system.machine, system.ledger.counted⟩
  | completed {reference native : Int}
      (hplannable : Plannable wiring system.machine.state evm code reference native)
      (hunbound : ∀ bound, system.machine.state.table.evm? native = some bound → bound = evm)
      (hadmitted : system.ledger.rejection
        (wiring.request system.machine.state.references reference evm kind code) = none) :
      Provisioned wiring system evm kind code (.ok native)
        ⟨⟨Addresses.writing system.machine.state ⟨evm, native, kind.label, reference⟩,
            system.machine.waiting⟩,
          system.ledger.served
            (wiring.request system.machine.state.references reference evm kind code) native⟩

/-- The kind of account that the code of an EVM address asks for. -/
def State.kindOf (state : State) (evm : Int) : ClassKind :=
  if state.codeAt evm = "0x" then .eoa else .contractAccount

/-- What resolving an EVM address comes to: an unmapped address out of range is refused whatever its
code is, and every other one is provisioned with its code and the kind that the code asks for. -/
inductive Resolved (wiring : Wiring) (system : System) (evm : Int) :
    Except Fault Int → System → Prop
  | outOfRange (hunmapped : system.machine.state.table.find? evm = none)
      (hevm : ¬ Address.IsEvm evm) :
      Resolved wiring system evm (.error (Provisioning.notEvm evm)) system
  | provisioned {outcome : Except Fault Int} {after : System}
      (hrange : system.machine.state.table.find? evm = none → Address.IsEvm evm)
      (hprovisioned : Provisioned wiring system evm (system.machine.state.kindOf evm)
        (system.machine.state.codeAt evm) outcome after) :
      Resolved wiring system evm outcome after

/-! ## Before the ledger is asked -/

namespace Provisioning

variable {hash : Hash} {deployer evm : Int} {store : ClassReferences} {kind code : String}

theorem plan_of_invalidCode (hcode : Numeral.isHexString code = false) :
    plan hash deployer ClassReferences.read store evm kind code =
      .error (.failed (notHex evm)) := by
  unfold plan
  rw [if_pos (by simp [hcode])]
  rfl

theorem plan_of_outOfRange (hcode : Numeral.isHexString code = true)
    (hevm : ¬ Address.IsEvm evm) :
    plan hash deployer ClassReferences.read store evm kind code =
      .error (.failed (notEvm evm)) := by
  unfold plan
  rw [if_neg (not_not_intro hcode), if_pos hevm]
  rfl

theorem plan_of_unreferenced (hcode : Numeral.isHexString code = true)
    (hevm : Address.IsEvm evm) (hmissing : store.reference? .proxy = none) :
    plan hash deployer ClassReferences.read store evm kind code = .error (.failed noProxy) := by
  unfold plan
  rw [if_neg (not_not_intro hcode), if_neg (not_not_intro hevm), proxyReference_of_none hmissing]
  rfl

end Provisioning

namespace Plannable

variable {wiring : Wiring} {state : State} {evm reference native : Int} {code : String}

/-- The plan for an address that can be planned, as any kind of account. -/
theorem plan (hstandard : wiring.Standard)
    (hplannable : Plannable wiring state evm code reference native) (kind : ClassKind) :
    wiring.provisioner.plan state.references evm kind.label code =
      .ok ⟨evm, native, wiring.request state.references reference evm kind code⟩ := by
  rw [hstandard]
  refine Provisioning.plan_eq_ok.mpr ⟨hplannable.isHex, hplannable.isEvm, reference,
    hplannable.referenced, native, hplannable.derived, ?_⟩
  rw [Provisioning.implementation_label]
  rfl

theorem native_isNative (hplannable : Plannable wiring state evm code reference native) :
    Address.IsNative native :=
  Derivation.accountAddress_isNative hplannable.derived

end Plannable

namespace Addresses

variable {hash : Hash} {provisioner : Provisioner} {state : State} {evm : Int}
  {kind code : String}

/-- An unmapped address that has no plan is refused for the reason why there is none. -/
theorem provision_of_unplanned (hunmapped : state.table.find? evm = none) {stop : Stop}
    (hstopped : provisioner.plan state.references evm kind code = .error stop) :
    (provision hash provisioner evm kind code state).outcome = .error stop := by
  rw [provision_of_unmapped hunmapped, hstopped]
  · rfl
  · intro plan hplan
    cases hstopped.symm.trans hplan

/-- An unmapped address is provisioned as planned, where the planned address is not bound elsewhere.
-/
theorem provision_of_planned (hunmapped : state.table.find? evm = none) {plan : DeploymentPlan}
    (hplanned : provisioner.plan state.references evm kind code = .ok plan)
    (hunbound : ∀ bound, state.table.evm? plan.nativeAddress = some bound → bound = evm) :
    (provision hash provisioner evm kind code state).outcome = .ok (.planned plan) := by
  rw [provision_of_unmapped hunmapped, hplanned]
  · rfl
  · intro other hother
    cases hplanned.symm.trans hother
    exact hunbound

/-- A plan for a native address that is bound elsewhere is refused, and the fault names all three
addresses. -/
theorem provision_of_collision (hunmapped : state.table.find? evm = none) {plan : DeploymentPlan}
    (hplanned : provisioner.plan state.references evm kind code = .ok plan) {bound : Int}
    (hbound : state.table.evm? plan.nativeAddress = some bound) (hother : bound ≠ evm)
    {evmText boundText nativeText : String}
    (hevmText : Address.formatEvm hash evm = .ok evmText)
    (hboundText : Address.formatEvm hash bound = .ok boundText)
    (hnativeText : Address.formatNative plan.nativeAddress = .ok nativeText) :
    (provision hash provisioner evm kind code state).outcome =
      .error (.failed (collision evmText boundText nativeText)) := by
  have hchecked : (checkCollision hash evm plan.nativeAddress state).outcome =
      .error (.failed (collision evmText boundText nativeText)) := by
    unfold checkCollision
    rw [get_bind, hbound]
    dsimp only
    rw [if_neg hother, hevmText, hboundText, hnativeText]
    rfl
  unfold provision
  rw [get_bind, hunmapped]
  dsimp only
  rw [hplanned, ofStop_ok, pure_bind_run, bind_of_error _ hchecked]

/-- Where the range of the address is no reason to refuse it, a resolution is a provisioning with
the code of the address. -/
theorem resolve_outcome (hvalid : state.table.Valid) (hash : Hash) (provisioner : Provisioner)
    (hrange : state.table.find? evm = none → Address.IsEvm evm) :
    (resolve hash provisioner evm state).outcome =
      (provision hash provisioner evm (state.kindOf evm).label (state.codeAt evm)
        state).outcome := by
  cases hfound : state.table.find? evm with
  | some mapping =>
      rw [resolve_of_mapped hash hfound, provision_of_mapped hash hvalid hfound]
  | none =>
      unfold resolve State.kindOf
      rw [get_bind, AddressTable.native?_eq_none_iff.mpr hfound]
      dsimp only
      rw [if_neg (not_not_intro (hrange hfound))]
      by_cases hcode : state.codeAt evm = "0x"
      · rw [if_pos hcode, if_pos hcode, hcode]
      · rw [if_neg hcode, if_neg hcode]

theorem resolve_of_outOfRange (hash : Hash) (provisioner : Provisioner)
    (hunmapped : state.table.find? evm = none) (hevm : ¬ Address.IsEvm evm) :
    (resolve hash provisioner evm state).outcome =
      .error (.failed (Provisioning.notEvm evm)) := by
  unfold resolve
  rw [get_bind, AddressTable.native?_eq_none_iff.mpr hunmapped]
  dsimp only
  rw [if_pos hevm]
  rfl

end Addresses

/-! ## Completed provisionings -/

/-- A call that the ledger in memory completes ends with a native address or a fault that is
returned, and leaves a system. -/
structure System.Completes (wiring : Wiring) (system : System) (call : Call)
    (outcome : Except Fault Int) (after : System) : Prop where
  effect : (system.complete wiring call none).effect =
    .ended call ((Provisioning.returned outcome).map Answer.integer)
  system : (system.complete wiring call none).system = after

namespace System

variable {wiring : Wiring} {system after : System} {call : Call} {evm : Int}
  {outcome : Except Fault Int}

/-- A completed call comes to one thing only. -/
theorem Completes.unique {other : Except Fault Int} {elsewhere : System}
    (hfirst : system.Completes wiring call outcome after)
    (hsecond : system.Completes wiring call other elsewhere) :
    outcome = other ∧ after = elsewhere := by
  refine ⟨?_, hfirst.system.symm.trans hsecond.system⟩
  have hsame := hfirst.effect.symm.trans hsecond.effect
  simp only [Effect.ended.injEq, true_and] at hsame
  cases outcome with
  | ok native =>
      cases other with
      | ok native' => cases hsame; rfl
      | error fault => cases hsame
  | error fault =>
      cases other with
      | ok native => cases hsame
      | error fault' => cases hsame; rfl

theorem completes_of_stopped (hprovisions : call.provisions? = some evm) {fault : Fault}
    (hbegun : (Registry.begin wiring call system.machine.state).outcome =
      .error (.failed fault)) :
    system.Completes wiring call (.error fault) system := by
  obtain ⟨heffect, hkept⟩ := complete_of_stopped hprovisions hbegun none
  exact ⟨heffect, hkept⟩

end System

/-- The call begins as the provisioning of an EVM address as a kind of account with code. -/
def Registry.Provisions (wiring : Wiring) (state : State) (call : Call) (evm : Int)
    (kind : ClassKind) (code : String) : Prop :=
  call.provisions? = some evm ∧
    (begin wiring call state).outcome =
      (ofStart (Addresses.provision wiring.hash wiring.provisioner evm kind.label code)
        state).outcome

namespace Provisioned

variable {wiring : Wiring} {system after : System} {call : Call} {evm : Int} {kind : ClassKind}
  {code : String} {outcome : Except Fault Int}

/-- What is listed for a provisioning is what the completed call comes to. -/
theorem completes (hstandard : wiring.Standard) (hvalid : system.machine.state.table.Valid)
    (hcall : Registry.Provisions wiring system.machine.state call evm kind code)
    (hprovisioned : Provisioned wiring system evm kind code outcome after) :
    system.Completes wiring call outcome after := by
  obtain ⟨hprovisions, hbegins⟩ := hcall
  unfold Registry.ofStart at hbegins
  -- how the provisioning starts is how the call begins
  have hstops {fault : Fault} (hstarted : (Addresses.provision wiring.hash wiring.provisioner evm
      kind.label code system.machine.state).outcome = .error (.failed fault)) :
      system.Completes wiring call (.error fault) system := by
    rw [bind_of_error _ hstarted] at hbegins
    exact System.completes_of_stopped hprovisions hbegins
  have hasks {plan : DeploymentPlan} (hstarted : (Addresses.provision wiring.hash
      wiring.provisioner evm kind.label code system.machine.state).outcome = .ok (.planned plan)) :
      (Registry.begin wiring call system.machine.state).outcome = .ok (.asks plan) := by
    rw [bind_of_ok _ hstarted] at hbegins
    exact hbegins
  cases hprovisioned with
  | mapped hmapped =>
      have hstarted := Addresses.provision_of_mapped wiring.hash hvalid hmapped wiring.provisioner
        kind.label code
      rw [bind_of_ok _ hstarted] at hbegins
      obtain ⟨heffect, hkept⟩ := System.complete_of_finished hprovisions hbegins none
      exact ⟨heffect, hkept⟩
  | invalidCode hunmapped hcode =>
      refine hstops (Addresses.provision_of_unplanned hunmapped ?_)
      rw [hstandard]
      exact Provisioning.plan_of_invalidCode hcode
  | outOfRange hunmapped hcode hevm =>
      refine hstops (Addresses.provision_of_unplanned hunmapped ?_)
      rw [hstandard]
      exact Provisioning.plan_of_outOfRange hcode hevm
  | unreferenced hunmapped hcode hevm hmissing =>
      refine hstops (Addresses.provision_of_unplanned hunmapped ?_)
      rw [hstandard]
      exact Provisioning.plan_of_unreferenced hcode hevm hmissing
  | colliding hplannable hbound hother hevmText hboundText hnativeText =>
      exact hstops (Addresses.provision_of_collision hplannable.unmapped
        (hplannable.plan hstandard kind) hbound hother hevmText hboundText hnativeText)
  | rejected hplannable hunbound hrejected =>
      have hbegun := hasks (Addresses.provision_of_planned hplannable.unmapped
        (hplannable.plan hstandard kind) hunbound)
      obtain ⟨heffect, hcounted⟩ :=
        System.complete_of_rejected hstandard hprovisions hbegun hrejected
      exact ⟨heffect, hcounted⟩
  | completed hplannable hunbound hadmitted =>
      have hplan := hplannable.plan hstandard kind
      have hbegun := hasks (Addresses.provision_of_planned hplannable.unmapped hplan hunbound)
      have hderived := (Provisioning.plan_derived (hstandard ▸ hplan)).2
      obtain ⟨heffect, hwritten⟩ :=
        System.complete_of_admitted hstandard hprovisions hbegun hadmitted
      rw [Ledger.deploy_of_admitted hderived hadmitted] at hwritten
      exact ⟨heffect, hwritten⟩

/-- Where an address can be planned, the table and the rule of the ledger decide. -/
theorem exists_of_plannable (hvalid : system.machine.state.table.Valid) (kind : ClassKind)
    {reference native : Int}
    (hplannable : Plannable wiring system.machine.state evm code reference native) :
    ∃ outcome after, Provisioned wiring system evm kind code outcome after := by
  by_cases hunbound :
      ∀ bound, system.machine.state.table.evm? native = some bound → bound = evm
  · cases hrule : system.ledger.rejection
        (wiring.request system.machine.state.references reference evm kind code) with
    | some reason => exact ⟨_, _, .rejected hplannable hunbound hrule⟩
    | none => exact ⟨_, _, .completed hplannable hunbound hrule⟩
  · simp only [not_forall] at hunbound
    obtain ⟨bound, hbound, hother⟩ := hunbound
    obtain ⟨evmText, hevmText⟩ := hplannable.isEvm.formatEvm wiring.hash
    obtain ⟨boundText, hboundText⟩ := (hvalid.isEvm_of_evm? hbound).formatEvm wiring.hash
    obtain ⟨nativeText, hnativeText⟩ := hplannable.native_isNative.formatNative
    exact ⟨_, _, .colliding hplannable hbound hother hevmText hboundText hnativeText⟩

/-- In a valid state one of the cases applies, and so there is an outcome. -/
theorem exists_outcome (hdeployer : Address.IsNative wiring.identity.deployer)
    (hvalid : system.machine.state.Valid) (evm : Int) (kind : ClassKind) (code : String) :
    ∃ outcome after, Provisioned wiring system evm kind code outcome after := by
  cases hfound : system.machine.state.table.find? evm with
  | some mapping => exact ⟨_, _, .mapped hfound⟩
  | none =>
      cases hcode : Numeral.isHexString code with
      | false => exact ⟨_, _, .invalidCode hfound hcode⟩
      | true =>
          by_cases hevm : Address.IsEvm evm
          · cases hreference : system.machine.state.references.reference? .proxy with
            | none => exact ⟨_, _, .unreferenced hfound hcode hevm hreference⟩
            | some reference =>
                obtain ⟨native, hnative⟩ := Derivation.accountAddress_of_range wiring.hash
                  (hvalid.references _ _ hreference) hevm hdeployer
                exact exists_of_plannable hvalid.table kind
                  ⟨hfound, hcode, hevm, hreference, hnative⟩
          · exact ⟨_, _, .outOfRange hfound hcode hevm⟩

end Provisioned

/-! ## The calls -/

namespace Registry.Provisions

variable {wiring : Wiring} {state : State} {evm : Int}

theorem eoa : Provisions wiring state (.provisionEoa evm) evm .eoa "0x" := ⟨rfl, rfl⟩

theorem contract {code : String} :
    Provisions wiring state (.provisionContract evm code) evm .contractAccount code := ⟨rfl, rfl⟩

theorem resolve (hvalid : state.table.Valid)
    (hrange : state.table.find? evm = none → Address.IsEvm evm) :
    Provisions wiring state (.resolve evm) evm (state.kindOf evm) (state.codeAt evm) := by
  refine ⟨rfl, ?_⟩
  simp only [begin, ofStart, outcome_bind, Addresses.resolve_state, Addresses.provision_state,
    Addresses.resolve_outcome hvalid wiring.hash wiring.provisioner hrange]

end Registry.Provisions

namespace Resolved

variable {wiring : Wiring} {system after : System} {evm : Int} {outcome : Except Fault Int}

theorem completes (hstandard : wiring.Standard) (hvalid : system.machine.state.table.Valid)
    (hresolved : Resolved wiring system evm outcome after) :
    system.Completes wiring (.resolve evm) outcome after := by
  cases hresolved with
  | outOfRange hunmapped hevm =>
      refine System.completes_of_stopped rfl ?_
      have hstopped :=
        Addresses.resolve_of_outOfRange wiring.hash wiring.provisioner hunmapped hevm
      simp only [Registry.begin, Registry.ofStart, bind_of_error _ hstopped]
  | provisioned hrange hprovisioned =>
      exact hprovisioned.completes hstandard hvalid (.resolve hvalid hrange)

theorem exists_outcome (hdeployer : Address.IsNative wiring.identity.deployer)
    (hvalid : system.machine.state.Valid) (evm : Int) :
    ∃ outcome after, Resolved wiring system evm outcome after := by
  by_cases hrange : system.machine.state.table.find? evm = none → Address.IsEvm evm
  · obtain ⟨outcome, after, hprovisioned⟩ := Provisioned.exists_outcome hdeployer hvalid evm
      (system.machine.state.kindOf evm) (system.machine.state.codeAt evm)
    exact ⟨outcome, after, .provisioned hrange hprovisioned⟩
  · rw [Classical.not_imp] at hrange
    exact ⟨_, _, .outOfRange hrange.1 hrange.2⟩

end Resolved

namespace System

variable {wiring : Wiring} {system : System} {call : Call}

/-- The completed call has an outcome, and it is exactly what is listed. -/
def ComesTo (wiring : Wiring) (system : System) (call : Call)
    (listed : Except Fault Int → System → Prop) : Prop :=
  (∃ outcome after, system.Completes wiring call outcome after) ∧
    ∀ outcome after, system.Completes wiring call outcome after ↔ listed outcome after

theorem comesTo_of_listed {listed : Except Fault Int → System → Prop}
    (hlisted : ∃ outcome after, listed outcome after)
    (hcompletes : ∀ outcome after, listed outcome after →
      system.Completes wiring call outcome after) : system.ComesTo wiring call listed := by
  obtain ⟨outcome, after, hsome⟩ := hlisted
  refine ⟨⟨outcome, after, hcompletes _ _ hsome⟩, fun other elsewhere => ⟨?_, hcompletes _ _⟩⟩
  intro hother
  obtain ⟨rfl, rfl⟩ := (hcompletes _ _ hsome).unique hother
  exact hsome

/-- In every system that a run leads to, whatever was deployed on the ledger directly and whatever
its rule is by then, each provisioning and each resolution has exactly one outcome: that of the
first case that applies. -/
theorem first_case_decides {hash : Hash} {setup : Setup} {launched : Launched}
    (hcreated : Launched.create hash setup = .ok launched) (ledger : Ledger)
    (events : List Event) (evm : Int) :
    let wiring := launched.wiring
    let system := (idle launched.state ledger).run wiring events
    (∀ code, system.ComesTo wiring (.provisionContract evm code)
      (Provisioned wiring system evm .contractAccount code)) ∧
    system.ComesTo wiring (.provisionEoa evm) (Provisioned wiring system evm .eoa "0x") ∧
    system.ComesTo wiring (.resolve evm) (Resolved wiring system evm) := by
  intro wiring system
  have hstandard : wiring.Standard := Launched.create_standard hcreated
  have hdeployer : Address.IsNative wiring.identity.deployer := Launched.create_deployer hcreated
  have hvalid : system.machine.state.Valid := by
    obtain ⟨taken, htaken⟩ := run_machine wiring (idle launched.state ledger) events
    exact htaken ▸ (Machine.Valid.reached hcreated taken).state
  refine ⟨fun code => ?_, ?_, ?_⟩
  · exact comesTo_of_listed (Provisioned.exists_outcome hdeployer hvalid evm _ _)
      fun _ _ hlisted => hlisted.completes hstandard hvalid.table .contract
  · exact comesTo_of_listed (Provisioned.exists_outcome hdeployer hvalid evm _ _)
      fun _ _ hlisted => hlisted.completes hstandard hvalid.table .eoa
  · exact comesTo_of_listed (Resolved.exists_outcome hdeployer hvalid evm)
      fun _ _ hlisted => hlisted.completes hstandard hvalid.table

/-- An account that was deployed on the ledger directly is adopted by a provisioning: the mapping
names the kind that was asked for, and the account stays as it was deployed.  Out of range, and with
code that is not hexadecimal, a provisioning is refused for its code and a resolution for its
range. -/
theorem first_case_decides_for_adopted_accounts :
    let launched := Launched.small .toSalt
    let direct : DeployRequest := ⟨9, [1, 7], 7, 1, ⟨"contract-account", none, "0x00"⟩⟩
    let events : List Event :=
      [.call (.setClassReference 2 "proxy" 9), .call (.setCode (-1) "code"), .request direct]
    let system := (idle launched.state .empty).run launched.wiring events
    system.Completes launched.wiring (.provisionEoa 7) (.ok 7)
      ⟨⟨Addresses.writing system.machine.state ⟨7, 7, "eoa", 9⟩, []⟩, system.ledger.counted⟩ ∧
    system.ledger.find? 7 = some ⟨7, 9, ⟨"contract-account", none, "0x00"⟩⟩ ∧
    system.Completes launched.wiring (.provisionContract (-1) "code")
      (.error (Provisioning.notHex (-1))) system ∧
    system.Completes launched.wiring (.resolve (-1)) (.error (Provisioning.notEvm (-1)))
      system := by
  intro launched direct events system
  have hcreated : Launched.create .toSalt .small = .ok launched := Launched.create_small .toSalt
  have hplannable : Plannable launched.wiring system.machine.state 7 "0x" 9 7 :=
    ⟨by decide +kernel, by decide +kernel, by decide, by decide +kernel,
      except_eq_ok_of_toOption (by decide +kernel)⟩
  obtain ⟨-, ⟨-, hprovisioned⟩, -⟩ := first_case_decides hcreated .empty events 7
  obtain ⟨hcontract, -, -, hresolved⟩ := first_case_decides hcreated .empty events (-1)
  refine ⟨?_, by decide +kernel, ?_, ?_⟩
  · have hserved : ∀ request, system.ledger.served request 7 = system.ledger.counted :=
      fun _ => if_neg (by decide +kernel)
    have hadopted := (hprovisioned _ _).mpr (.completed hplannable (by decide +kernel) rfl)
    rw [hserved] at hadopted
    exact hadopted
  · exact ((hcontract "code").2 _ _).mpr (.invalidCode (by decide +kernel) (by decide +kernel))
  · exact (hresolved _ _).mpr (.outOfRange (by decide +kernel) (by decide))

end System

end AccountRegistry
