import AccountRegistry.Proofs.Kinds
import AccountRegistry.Proofs.Prediction
import AccountRegistry.Proofs.ResolutionOrder

/-!
# Registries that share a ledger

Any number of registries are called in any order over one ledger, each call with its deployment
before the next one.  They share nothing else, and see the deployments of each other only as
accounts that exist already.  All the same two registries with one deployer agree:

* `Backed`: each mapping of each registry has its account on the ledger.
* `derived_of_complete`: an address that a call maps is derived from the proxy reference that the
  registry had at that moment.
* `complete_resolve_of_founded`: a registry that derives the native address of an account of the
  ledger returns it and deploys nothing.
* `registries_agree`: so an address that one registry has mapped under a proxy reference resolves
  to the same account in every other one with this reference and the same deployer, also in one that
  starts anew.
-/

namespace AccountRegistry

/-! ## Registries over one ledger -/

/-- Registries and the one ledger that they deploy on. -/
structure Shared (ι : Type) where
  machine : ι → Machine
  ledger : Ledger

namespace Shared

variable {ι : Type} [DecidableEq ι]

/-- One of the registries with the ledger. -/
def system (shared : Shared ι) (name : ι) : System := ⟨shared.machine name, shared.ledger⟩

/-- What can happen to the registries and their ledger, one after the other.

* `call`: one of them is called, and the ledger takes its request or throws before the next one.
* `request`: a request is made on the ledger directly.
* `reject`: the ledger gets another rule. -/
inductive Operation (ι : Type) where
  | call (name : ι) (call : Call) (thrown : Option Fault)
  | request (request : DeployRequest)
  | reject (rejection : Rejection)

/-- Registries between their calls, over a ledger. -/
def idle (launched : ι → Launched) (ledger : Ledger) : Shared ι :=
  ⟨fun name => .idle (launched name).state, ledger⟩

/-- Take one operation. -/
def step (hash : Hash) (wiring : ι → Wiring) (shared : Shared ι) : Operation ι → Shared ι
  | .call name call thrown =>
      let ended := ((shared.system name).complete (wiring name) call thrown).system
      ⟨Function.update shared.machine name ended.machine, ended.ledger⟩
  | .request request => { shared with ledger := shared.ledger.deploy hash request }
  | .reject rejection => { shared with ledger := shared.ledger.withRejection rejection }

/-- The registries and the ledger after a list of operations. -/
def run (hash : Hash) (wiring : ι → Wiring) : Shared ι → List (Operation ι) → Shared ι
  | shared, [] => shared
  | shared, operation :: rest => run hash wiring (shared.step hash wiring operation) rest

/-- Somewhere in a run, one operation maps an address in a registry that has a proxy reference. -/
def MapsUnder (hash : Hash) (wiring : ι → Wiring) (shared : Shared ι)
    (operations : List (Operation ι)) (name : ι) (reference evm : Int) : Prop :=
  ∃ before operation after, operations = before ++ operation :: after ∧
    let asked := shared.run hash wiring before
    let ended := asked.step hash wiring operation
    (asked.machine name).state.references.reference? .proxy = some reference ∧
      (asked.machine name).state.table.find? evm = none ∧
      (ended.machine name).state.table.find? evm ≠ none

end Shared

/-! ## Completed calls -/

namespace Machine

variable {wiring : Wiring} {machine : Machine} {reference evm : Int}

/-- An address that a completed call maps is derived from the proxy reference that was set before
the call. -/
theorem derived_of_complete (hstandard : wiring.Standard)
    (hunmapped : machine.state.table.find? evm = none)
    (hreference : machine.state.references.reference? .proxy = some reference) {call : Call}
    {reply : HostReply} {mapping : Mapping}
    (hmapped : (machine.complete wiring call reply).machine.state.table.find? evm =
      some mapping) :
    Derivation.accountAddress wiring.hash reference evm wiring.identity.deployer =
      .ok mapping.nativeAddress := by
  have hcalled : (machine.step wiring (.call call)).machine.Steady wiring reference evm
      machine.waiting :=
    Steady.step hstandard (.of_unmapped hunmapped) hreference nofun
  rcases step_call_effect wiring machine call with ⟨outcome, hended⟩ | ⟨plan, hasked⟩
  · rw [complete_of_ended hended] at hmapped
    exact hcalled.mapped mapping hmapped
  · -- a call that asks has changed nothing yet, and the reply goes to this very call
    obtain ⟨-, -, hjoined⟩ := step_asked hstandard hasked
    rw [complete_of_asked hasked] at hmapped
    rw [hjoined] at hcalled hmapped
    refine (hcalled.step hstandard hreference ?_).mapped mapping hmapped
    intro _ _ hframe
    exact absurd (congrArg List.length hframe) (by simp)

end Machine

namespace System

variable {wiring : Wiring} {system : System}

/-- Each mapping has an account on the ledger. -/
def Backed (system : System) : Prop :=
  ∀ mapping ∈ system.machine.state.table.mappings,
    ∃ account, system.ledger.find? mapping.nativeAddress = some account

theorem Backed.step (hstandard : wiring.Standard) (hcoherent : system.machine.Coherent wiring)
    (hbacked : system.Backed) {event : Event} (hgenuine : event.Genuine) :
    (system.step wiring event).system.Backed := by
  intro mapping hmem
  rcases kind_of_written hstandard hcoherent hgenuine hmem with hold | ⟨account, haccount, -⟩
  · obtain ⟨account, haccount⟩ := hbacked mapping hold
    exact ⟨account, find?_step haccount event⟩
  · exact ⟨account, haccount⟩

theorem Backed.complete (hstandard : wiring.Standard) (hcoherent : system.machine.Coherent wiring)
    (hbacked : system.Backed) (call : Call) (thrown : Option Fault) :
    (system.complete wiring call thrown).system.Backed := by
  refine (complete_induction
    (fun system => system.machine.Coherent wiring ∧ system.Backed) ?_ ?_ ⟨hcoherent, hbacked⟩
    call thrown).2
  · rintro system event hgenuine ⟨hcoherent, hbacked⟩
    refine ⟨?_, hbacked.step hstandard hcoherent hgenuine⟩
    rcases step_machine wiring system event with hkept | ⟨taken, htaken⟩
    · exact hkept ▸ hcoherent
    · exact htaken ▸ hcoherent.step hstandard taken
  · exact fun _ hboth => hboth

end System

/-! ## Accounts that exist already -/

/-- An account lives where an EVM address is derived to by a deployer under a class reference. -/
structure Ledger.Founds (hash : Hash) (deployer reference evm native : Int) (ledger : Ledger) :
    Prop where
  range : Address.IsEvm evm
  derived : Derivation.accountAddress hash reference evm deployer = .ok native
  account : ∃ account, ledger.find? native = some account

namespace System

variable {wiring : Wiring} {system : System} {reference evm native : Int}

/-- A request for an account that exists already deploys nothing. -/
theorem accounts_deploy_of_founded
    (hfounded : system.ledger.Founds wiring.hash wiring.identity.deployer reference evm native)
    {plan : DeploymentPlan} (hderived : plan.Derived wiring.hash wiring.identity.deployer)
    (hnative : plan.nativeAddress = native) :
    (system.ledger.deploy wiring.hash plan.request).accounts = system.ledger.accounts := by
  refine Ledger.accounts_deploy_of_ne fun place hreply => ?_
  obtain ⟨-, hplace, hfree⟩ := Ledger.reply_eq_deployed.mp hreply
  obtain ⟨account, hfound⟩ := hfounded.account
  rw [Ledger.address_of_derived hderived, hnative] at hplace
  cases hplace
  rw [hfound] at hfree
  cases hfree

/-- A registry asks for an account that exists already under the reference that it has. -/
theorem native_of_asks (hstandard : wiring.Standard)
    (hreference : system.machine.state.references.reference? .proxy = some reference)
    (hfounded : system.ledger.Founds wiring.hash wiring.identity.deployer reference evm native)
    {plan : DeploymentPlan}
    (hbegun : (Registry.begin wiring (.resolve evm) system.machine.state).outcome =
      .ok (.asks plan)) :
    plan.Derived wiring.hash wiring.identity.deployer ∧ plan.nativeAddress = native := by
  obtain ⟨hevm, hderived, hcurrent, -⟩ := Registry.begin_asks_derived hstandard
    (Call.ne_deployIfAbsent_of_provisions? rfl) hbegun
  rw [hreference] at hcurrent
  cases hevm
  cases hcurrent
  exact ⟨hderived, Except.ok.inj (hderived.native.symm.trans hfounded.derived)⟩

section Unmapped

variable (hstandard : wiring.Standard)
  (hunmapped : system.machine.state.table.find? evm = none)
  (hreference : system.machine.state.references.reference? .proxy = some reference)
  (hfounded : system.ledger.Founds wiring.hash wiring.identity.deployer reference evm native)

include hstandard hunmapped hreference hfounded

/-- A registry that has not mapped an address, and derives it to an account that exists already,
deploys nothing for it and can only resolve it to this account. -/
theorem complete_resolve_of_founded (thrown : Option Fault) :
    (system.complete wiring (.resolve evm) thrown).system.ledger.accounts =
        system.ledger.accounts ∧
      ∀ answer, (system.complete wiring (.resolve evm) thrown).effect =
        .ended (.resolve evm) (.ok answer) → answer = .integer native := by
  cases hbegun : (Registry.begin wiring (.resolve evm) system.machine.state).outcome with
  | error stop =>
      obtain ⟨heffect, hsystem⟩ := complete_of_stopped rfl hbegun thrown
      rw [heffect, hsystem]
      exact ⟨rfl, fun _ hended => by cases hended⟩
  | ok progress =>
      cases progress with
      | finished answer =>
          -- the answer would be the mapping of the address
          obtain ⟨value, rfl⟩ := Registry.ofStart_integer hbegun
          have hmapped := Registry.native?_of_begin hstandard rfl hbegun
          rw [Registry.begin_provisions_state rfl, AddressTable.native?_eq_none_iff.mpr hunmapped]
            at hmapped
          cases hmapped
      | asks plan =>
          obtain ⟨hderived, hnative⟩ := native_of_asks hstandard hreference hfounded hbegun
          cases thrown with
          | some fault =>
              obtain ⟨⟨stop, heffect⟩, hsystem⟩ := complete_of_thrown hstandard rfl hbegun fault
              rw [heffect, hsystem]
              exact ⟨rfl, fun _ hended => by cases hended⟩
          | none =>
              cases hrejection : system.ledger.rejection plan.request with
              | some reason =>
                  obtain ⟨heffect, hsystem⟩ := complete_of_rejected hstandard rfl hbegun hrejection
                  rw [heffect, hsystem]
                  exact ⟨rfl, fun _ hended => by cases hended⟩
              | none =>
                  obtain ⟨heffect, hsystem⟩ := complete_of_admitted hstandard rfl hbegun hrejection
                  rw [heffect, hsystem]
                  refine ⟨accounts_deploy_of_founded hfounded hderived hnative, ?_⟩
                  intro answer hended
                  cases hended
                  rw [hnative]

/-- Nothing but its code, the rule of the ledger and another mapping can keep a registry from
resolving an address to an account that exists already. -/
theorem verdict_of_founded
    (hcode : Numeral.isHexString (system.machine.state.codeAt evm) = true)
    (hadmitted : ∀ plan, wiring.intends system.machine.state evm = .ok plan →
      system.ledger.rejection plan.request = none) :
    ∃ plan, system.verdict wiring evm = .granted plan ∧ plan.nativeAddress = native := by
  obtain ⟨plan, hintends, hnative⟩ := Wiring.intends_of_derived hstandard hcode hfounded.range
    hreference hfounded.derived
  exact ⟨plan, verdict_eq_granted.mpr ⟨hunmapped, hintends, hadmitted plan hintends⟩, hnative⟩

/-- It does resolve it where nothing of this kind is in the way. -/
theorem resolve_succeeds_of_founded
    (hcode : Numeral.isHexString (system.machine.state.codeAt evm) = true)
    (hadmitted : ∀ plan, wiring.intends system.machine.state evm = .ok plan →
      system.ledger.rejection plan.request = none)
    (hunbound : ∀ bound, system.machine.state.table.evm? native = some bound → bound = evm) :
    (system.complete wiring (.resolve evm) none).effect =
      .ended (.resolve evm) (.ok (.integer native)) := by
  obtain ⟨plan, hgranted, rfl⟩ :=
    verdict_of_founded hstandard hunmapped hreference hfounded hcode hadmitted
  obtain ⟨-, hintends, hlet⟩ := verdict_eq_granted.mp hgranted
  have hbegun := Registry.begin_resolve_asks hunmapped hintends hunbound
  exact (complete_of_admitted hstandard rfl hbegun hlet).1

end Unmapped

/-- Whether the rule lets the request of a resolution pass can be computed. -/
theorem admitted_of_toOption
    (hall : (wiring.intends system.machine.state evm).toOption.all
      (fun plan => system.ledger.rejection plan.request = none) = true) :
    ∀ plan, wiring.intends system.machine.state evm = .ok plan →
      system.ledger.rejection plan.request = none := by
  intro plan hintends
  rw [hintends] at hall
  exact of_decide_eq_true hall

/-- A registry without mappings resolves the addresses that another table maps to accounts that
exist already: it deploys nothing, and finds them all where they are. -/
theorem resolveAll_of_founded (hstandard : wiring.Standard) {known : AddressTable}
    (hvalid : known.Valid) (hempty : system.machine.state.table = .empty)
    (hreference : system.machine.state.references.reference? .proxy = some reference)
    {evms : List Int} (hknown : ∀ evm ∈ evms, ∃ native, known.native? evm = some native ∧
      system.ledger.Founds wiring.hash wiring.identity.deployer reference evm native)
    (hcode : ∀ evm ∈ evms, Numeral.isHexString (system.machine.state.codeAt evm) = true)
    (hadmitted : ∀ evm ∈ evms, ∀ plan, wiring.intends system.machine.state evm = .ok plan →
      system.ledger.rejection plan.request = none) :
    (system.resolveAll wiring evms).ledger.accounts = system.ledger.accounts ∧
      List.Forall₂ (fun evm effect => ∃ native, known.native? evm = some native ∧
        effect = .ended (.resolve evm) (.ok (.integer native)))
        evms (system.resolutions wiring evms) := by
  have hunmapped : ∀ evm, system.machine.state.table.find? evm = none := by
    intro evm
    rw [hempty]
    rfl
  -- every address is granted a plan for an account that exists already
  have hgranted : ∀ evm ∈ evms, ∃ plan, system.verdict wiring evm = .granted plan ∧
      known.native? evm = some plan.nativeAddress ∧
      system.ledger.find? plan.nativeAddress ≠ none := by
    intro evm hmem
    obtain ⟨native, hnative, hfounded⟩ := hknown evm hmem
    obtain ⟨plan, hverdict, rfl⟩ := verdict_of_founded hstandard (hunmapped evm) hreference
      hfounded (hcode evm hmem) (hadmitted evm hmem)
    obtain ⟨account, hfound⟩ := hfounded.account
    exact ⟨plan, hverdict, hnative, hfound ▸ nofun⟩
  have hapart : system.Apart wiring evms := {
    distinct := fun first hfirst second hsecond _ _ native hone htwo => by
      obtain ⟨_, hfirstNative, hfirstFounded⟩ := hknown first hfirst
      obtain ⟨_, hsecondNative, hsecondFounded⟩ := hknown second hsecond
      cases hfirstFounded.derived.symm.trans
        (Wiring.accountAddress_of_derive hstandard hreference hone)
      cases hsecondFounded.derived.symm.trans
        (Wiring.accountAddress_of_derive hstandard hreference htwo)
      exact hvalid.evm_injective hfirstNative hsecondNative
    unbound := fun evm _ _ native _ bound hbound => by
      rw [hempty] at hbound
      cases hbound }
  obtain ⟨heffects, hended⟩ :=
    resolveAll_after hstandard hapart (List.nil_subset evms) (List.Subset.refl evms)
  rw [after_nil] at heffects hended
  rw [heffects, hended]
  refine ⟨?_, List.forall₂_map_right_iff.mpr (List.forall₂_same.mpr fun evm hmem => ?_)⟩
  · have hnone : (system.grants wiring (evms.reverse ++ [])).filter
        (fun plan => system.ledger.find? plan.nativeAddress = none) = [] := by
      refine List.filter_eq_nil_iff.mpr fun plan hplan hfree => ?_
      obtain ⟨hmem, hplanned⟩ := (mem_grants hstandard).mp hplan
      obtain ⟨other, hverdict, -, hoccupied⟩ := hgranted plan.evmAddress (by simpa using hmem)
      rw [hplanned] at hverdict
      cases hverdict
      exact hoccupied (of_decide_eq_true hfree)
    simp only [after, carried, hnone, List.map_nil, List.nil_append]
  · obtain ⟨plan, hverdict, hnative, -⟩ := hgranted evm hmem
    exact ⟨plan.nativeAddress, hnative, by rw [hverdict]; rfl⟩

end System

/-! ## Every run of several registries -/

namespace Shared

variable {ι : Type} [DecidableEq ι] {hash : Hash} {wiring : ι → Wiring} {shared : Shared ι}

theorem run_append (hash : Hash) (wiring : ι → Wiring) (shared : Shared ι)
    (before after : List (Operation ι)) :
    shared.run hash wiring (before ++ after) =
      (shared.run hash wiring before).run hash wiring after := by
  induction before generalizing shared with
  | nil => rfl
  | cons operation rest ih => exact ih _

/-- To each of the registries an operation is a completed call or nothing. -/
theorem step_machine (hstandard : ∀ name, (wiring name).Standard) (shared : Shared ι)
    (operation : Operation ι) (name : ι) :
    (shared.step hash wiring operation).machine name = shared.machine name ∨
      ∃ call reply, (shared.step hash wiring operation).machine name =
        ((shared.machine name).complete (wiring name) call reply).machine := by
  cases operation with
  | request request => exact .inl rfl
  | reject rejection => exact .inl rfl
  | call called call thrown =>
      by_cases hsame : name = called
      · subst hsame
        obtain ⟨reply, hcomplete⟩ :=
          System.complete_machine (hstandard name) (shared.system name) call thrown
        refine .inr ⟨call.informed shared.ledger.find?, reply, ?_⟩
        simp only [step, Function.update_self]
        exact hcomplete
      · exact .inl (Function.update_of_ne hsame _ _)

theorem step_machine_run (hstandard : ∀ name, (wiring name).Standard) (shared : Shared ι)
    (operation : Operation ι) (name : ι) :
    ∃ events, (shared.step hash wiring operation).machine name =
      (shared.machine name).run (wiring name) events := by
  rcases step_machine hstandard shared operation name with hkept | ⟨call, reply, hcompleted⟩
  · exact ⟨[], hkept⟩
  · obtain ⟨events, hrun⟩ := Machine.complete_run (wiring name) (shared.machine name) call reply
    exact ⟨events, hcompleted.trans hrun⟩

/-- No operation takes an account from the ledger. -/
theorem find?_step {place : Int} {account : DeployedAccount}
    (hfound : shared.ledger.find? place = some account) (operation : Operation ι) :
    (shared.step hash wiring operation).ledger.find? place = some account := by
  cases operation with
  | call name call thrown =>
      show ((shared.system name).complete (wiring name) call thrown).system.ledger.find? place = _
      exact System.find?_complete hfound call thrown
  | request request => exact Ledger.find?_deploy hash request hfound
  | reject rejection => exact hfound

/-- The registries are valid, and all their mappings have accounts. -/
structure Sound (wiring : ι → Wiring) (shared : Shared ι) : Prop where
  valid : ∀ name, (shared.machine name).Valid (wiring name)
  backed : ∀ name, (shared.system name).Backed

theorem Sound.step (hstandard : ∀ name, (wiring name).Standard)
    (hdeployer : ∀ name, Address.IsNative (wiring name).identity.deployer)
    (hsound : shared.Sound wiring) (operation : Operation ι) :
    (shared.step hash wiring operation).Sound wiring where
  valid name := by
    obtain ⟨events, hrun⟩ := step_machine_run hstandard shared operation name
    rw [hrun]
    exact (hsound.valid name).run (hstandard name) (hdeployer name) events
  backed name := by
    by_cases hcalled : ∃ call thrown, operation = .call name call thrown
    · obtain ⟨call, thrown, rfl⟩ := hcalled
      have hbacked := (hsound.backed name).complete (hstandard name) (hsound.valid name).coherent
        call thrown
      simpa only [System.Backed, system, Shared.step, Function.update_self] using hbacked
    · -- the accounts of a registry that is not called stay
      have hkept : (shared.step hash wiring operation).machine name = shared.machine name := by
        cases operation with
        | request request => rfl
        | reject rejection => rfl
        | call called call thrown =>
            refine Function.update_of_ne ?_ _ _
            rintro rfl
            exact hcalled ⟨call, thrown, rfl⟩
      intro mapping hmem
      simp only [system, hkept] at hmem ⊢
      obtain ⟨account, hfound⟩ := hsound.backed name mapping hmem
      exact ⟨account, find?_step hfound operation⟩

theorem Sound.run (hstandard : ∀ name, (wiring name).Standard)
    (hdeployer : ∀ name, Address.IsNative (wiring name).identity.deployer)
    (hsound : shared.Sound wiring) (operations : List (Operation ι)) :
    (shared.run hash wiring operations).Sound wiring := by
  induction operations generalizing shared with
  | nil => exact hsound
  | cons operation rest ih => exact ih (hsound.step hstandard hdeployer operation)

/-- No registry takes back a mapping. -/
theorem run_extends (hstandard : ∀ name, (wiring name).Standard) (shared : Shared ι)
    (operations : List (Operation ι)) (name : ι) :
    (shared.machine name).state.table.Extends
      ((shared.run hash wiring operations).machine name).state.table := by
  induction operations generalizing shared with
  | nil => exact .refl _
  | cons operation rest ih =>
      refine AddressTable.Extends.trans ?_ (ih (shared.step hash wiring operation))
      obtain ⟨events, hrun⟩ := step_machine_run hstandard shared operation name
      rw [hrun]
      exact Machine.run_extends (hstandard name) _ events

/-- An address that a registry mapped under a proxy reference has an account where this reference
and the deployer of the registry derive it to, and the registry keeps it mapped there. -/
theorem founded_of_mapsUnder (hstandard : ∀ name, (wiring name).Standard)
    (hdeployer : ∀ name, Address.IsNative (wiring name).identity.deployer)
    (hhash : ∀ name, (wiring name).hash = hash) (hsound : shared.Sound wiring)
    {operations : List (Operation ι)} {name : ι} {reference evm : Int}
    (hmaps : shared.MapsUnder hash wiring operations name reference evm) :
    ∃ native, ((shared.run hash wiring operations).machine name).state.table.native? evm =
        some native ∧
      (shared.run hash wiring operations).ledger.Founds hash (wiring name).identity.deployer
        reference evm native := by
  obtain ⟨before, operation, after, rfl, hreference, hunmapped, hmapped⟩ := hmaps
  obtain ⟨mapping, hfound⟩ := Option.ne_none_iff_exists'.mp hmapped
  let last := shared.run hash wiring (before ++ operation :: after)
  have hended : (last.machine name).state.table.find? evm = some mapping := by
    show ((shared.run hash wiring (before ++ operation :: after)).machine name).state.table.find?
      evm = some mapping
    rw [run_append]
    exact run_extends hstandard _ after name evm mapping hfound
  have hlast : last.Sound wiring := hsound.run hstandard hdeployer _
  have hmem := AddressTable.mem_of_find? hended
  refine ⟨mapping.nativeAddress, AddressTable.native?_of_find? hended, ?_, ?_, ?_⟩
  · exact (hlast.valid name).state.table.isEvm_of_find? hended
  · rcases step_machine hstandard (shared.run hash wiring before) operation name with hkept |
      ⟨call, reply, hcompleted⟩
    · rw [hkept, hunmapped] at hfound
      cases hfound
    · rw [hcompleted] at hfound
      have hderived := Machine.derived_of_complete (hstandard name) hunmapped hreference hfound
      rwa [hhash name] at hderived
  · exact hlast.backed name mapping hmem

omit [DecidableEq ι] in
/-- Created registries begin without mappings. -/
theorem Sound.create {setup : ι → Setup} {launched : ι → Launched}
    (hcreated : ∀ name, Launched.create hash (setup name) = .ok (launched name))
    (ledger : Ledger) :
    (idle launched ledger).Sound fun name => (launched name).wiring where
  valid name := .create (hcreated name)
  backed name mapping hmem := by
    have hempty := Launched.create_table (hcreated name)
    simp only [system, idle, Machine.idle, hempty] at hmem
    cases hmem

/-- Created registries are called in any order over one ledger, each call completed before the next
one, while requests are made on the ledger directly and its rule changes.  Let two of them have one
deployer, and let the other one have a proxy reference under which the first one has mapped an
address.

If the other one has not mapped the address, then resolving it deploys nothing, and can only succeed
with the native address that the first one has.  It does succeed if the code of the address is
valid, the ledger does not reject the request and the other one has not bound the native address
elsewhere.

If the other one starts anew, without mappings, then under the same conditions it resolves all such
addresses in any order as the first one did, and deploys nothing. -/
theorem registries_agree {setup : ι → Setup} {launched : ι → Launched}
    (hcreated : ∀ name, Launched.create hash (setup name) = .ok (launched name))
    (ledger : Ledger) (operations : List (Operation ι)) (name other : ι) (reference : Int)
    (hdeployer : (launched name).wiring.identity.deployer =
      (launched other).wiring.identity.deployer) :
    let wiring := fun name => (launched name).wiring
    let start := idle launched ledger
    let shared := start.run hash wiring operations
    let known := (shared.machine name).state.table
    let asked := shared.system other
    let state := asked.machine.state
    state.references.reference? .proxy = some reference →
    (∀ evm, start.MapsUnder hash wiring operations name reference evm →
      state.table.find? evm = none → ∃ native, known.native? evm = some native ∧
        (∀ thrown, let ended := asked.complete (launched other).wiring (.resolve evm) thrown
          ended.system.ledger.accounts = asked.ledger.accounts ∧
          ∀ answer, ended.effect = .ended (.resolve evm) (.ok answer) →
            answer = .integer native) ∧
        (Numeral.isHexString (state.codeAt evm) = true →
          (∀ plan, (launched other).wiring.intends state evm = .ok plan →
            asked.ledger.rejection plan.request = none) →
          (∀ bound, state.table.evm? native = some bound → bound = evm) →
          (asked.complete (launched other).wiring (.resolve evm) none).effect =
            .ended (.resolve evm) (.ok (.integer native)))) ∧
    (∀ evms, state.table = .empty →
      (∀ evm ∈ evms, start.MapsUnder hash wiring operations name reference evm ∧
        Numeral.isHexString (state.codeAt evm) = true ∧
        ∀ plan, (launched other).wiring.intends state evm = .ok plan →
          asked.ledger.rejection plan.request = none) →
      (asked.resolveAll (launched other).wiring evms).ledger.accounts = asked.ledger.accounts ∧
      List.Forall₂ (fun evm effect => ∃ native, known.native? evm = some native ∧
        effect = .ended (.resolve evm) (.ok (.integer native)))
        evms (asked.resolutions (launched other).wiring evms)) := by
  intro wiring start shared known asked state hreference
  have hstandard : ∀ name, (wiring name).Standard :=
    fun name => Launched.create_standard (hcreated name)
  have hnative : ∀ name, Address.IsNative (wiring name).identity.deployer :=
    fun name => Launched.create_deployer (hcreated name)
  have hhash : ∀ name, (wiring name).hash = hash := fun name => Launched.create_hash (hcreated name)
  have hstart : start.Sound wiring := .create hcreated ledger
  have hshared : shared.Sound wiring := hstart.run hstandard hnative operations
  -- what the first one mapped is an account that the other one derives
  have hfounded : ∀ evm, start.MapsUnder hash wiring operations name reference evm →
      ∃ native, known.native? evm = some native ∧
        asked.ledger.Founds (wiring other).hash (wiring other).identity.deployer reference evm
          native := by
    intro evm hmaps
    obtain ⟨native, hknown, hfounds⟩ :=
      founded_of_mapsUnder hstandard hnative hhash hstart hmaps
    refine ⟨native, hknown, ?_⟩
    rw [hhash other, ← show (wiring name).identity.deployer = _ from hdeployer]
    exact hfounds
  refine ⟨fun evm hmaps hunmapped => ?_, fun evms hempty hevms => ?_⟩
  · obtain ⟨native, hknown, hfounds⟩ := hfounded evm hmaps
    refine ⟨native, hknown, fun thrown => ?_, fun hcode hadmitted hunbound => ?_⟩
    · exact System.complete_resolve_of_founded (hstandard other) hunmapped hreference hfounds
        thrown
    · exact System.resolve_succeeds_of_founded (hstandard other) hunmapped hreference hfounds
        hcode hadmitted hunbound
  · exact System.resolveAll_of_founded (hstandard other) (hshared.valid name).state.table hempty
      hreference (fun evm hmem => hfounded evm (hevms evm hmem).1)
      (fun evm hmem => (hevms evm hmem).2.1) fun evm hmem => (hevms evm hmem).2.2

/-- Two registries get one proxy reference.  The first one resolves an address and is upgraded; to
the second one the address is a contract. -/
def upgradeOfFirst : List (Operation Bool) :=
  [.call true (.setClassReference 2 "proxy" 9) none,
    .call false (.setClassReference 2 "proxy" 9) none, .call true (.resolve 7) none,
    .call true (.setClassReference 2 "proxy" 10) none, .call false (.setCode 7 "0x00") none]

/-- The second registry resolves the address, also time after time, and finds the account that the
first one deployed. -/
theorem registries_agree_on_contract :
    let wiring := (Launched.small .toSalt).wiring
    let start := idle (fun _ : Bool => Launched.small .toSalt) .empty
    let asked := (start.run .toSalt (fun _ => wiring) upgradeOfFirst).system false
    (asked.complete wiring (.resolve 7) none).effect = .ended (.resolve 7) (.ok (.integer 7)) ∧
      (asked.complete wiring (.resolve 7) none).system.ledger.accounts = asked.ledger.accounts ∧
      (asked.resolveAll wiring [7, 7]).ledger.accounts = asked.ledger.accounts ∧
      asked.ledger.accounts.length = 1 := by
  intro wiring start asked
  have hmaps : start.MapsUnder .toSalt (fun _ => wiring) upgradeOfFirst true 9 7 :=
    ⟨upgradeOfFirst.take 2, upgradeOfFirst[2], upgradeOfFirst.drop 3, rfl, by decide +kernel,
      by decide +kernel, by decide +kernel⟩
  obtain ⟨hone, hall⟩ := registries_agree (fun _ => Launched.create_small .toSalt) .empty
    upgradeOfFirst true false 9 rfl (by decide +kernel)
  obtain ⟨native, hknown, hkept, hended⟩ := hone 7 hmaps (by decide +kernel)
  have hnative : native = 7 := Option.some.inj (hknown.symm.trans (by decide +kernel))
  subst hnative
  dsimp only [asked, start, wiring]
  refine ⟨hended (by decide +kernel) (System.admitted_of_toOption (by decide +kernel)) ?_,
    (hkept none).1, (hall [7, 7] (by decide +kernel) ?_).1, by decide +kernel⟩
  · intro bound hbound
    exact absurd (hbound.symm.trans (by decide +kernel : _ = none)) nofun
  · intro evm hmem
    obtain rfl : evm = 7 := by simpa using hmem
    exact ⟨hmaps, by decide +kernel, System.admitted_of_toOption (by decide +kernel)⟩

end Shared

end AccountRegistry
