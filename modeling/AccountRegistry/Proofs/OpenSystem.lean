import AccountRegistry.Proofs.Seeds

/-!
# A mapping tells the truth about its account

In an open system anybody may make requests on the ledger, its rule may change at any time, and
calls may be made while others wait.  A mapping has three sources: a plan whose account was
deployed, a plan whose account was there already, and an account that registers itself.

* `Truthful`: everything that the system holds was made from a seed of the run; each mapping names
  an account of the ledger, the class reference of that account, and the address derived from it.
* `Truthful.step`: every event keeps that, as long as the seeds do not collide.  Two seeds with the
  address of the mapping are then one seed, so all three sources name the same derivation.
* `mappings_tell_the_truth`: what follows for every run.
-/

namespace AccountRegistry.System

variable {wiring : Wiring} {system : System} {seeds : List Seed}

/-- What can happen over the ledger in memory: anything but that a waiting call gets a reply from
elsewhere; only the rule of the ledger may throw. -/
def Event.Genuine : Event → Prop
  | .reply answer => ∃ fault, answer = .threw fault
  | _ => True

/-- The ledger bears a mapping out: an account with its class reference lives at its native address,
which is the one derived from that class reference. -/
def BearsOut (wiring : Wiring) (ledger : Ledger) (mapping : Mapping) : Prop :=
  (∃ account, ledger.find? mapping.nativeAddress = some account ∧
    account.classReference = mapping.classReference) ∧
  Derivation.accountAddress wiring.hash mapping.classReference mapping.evmAddress
    wiring.identity.deployer = .ok mapping.nativeAddress

/-- Accounts and plans come from the given seeds, and all mappings are true. -/
structure Truthful (wiring : Wiring) (seeds : List Seed) (system : System) : Prop where
  coherent : system.machine.Coherent wiring
  accounts : ∀ account ∈ system.ledger.accounts, ∃ seed ∈ seeds,
    seed.address wiring.hash = .ok account.address ∧
      seed.classReference = account.classReference
  plans : ∀ waiting ∈ system.machine.waiting,
    (∀ given, waiting.call ≠ .deployIfAbsent given) → waiting.plan.request.seed ∈ seeds
  mappings : ∀ mapping ∈ system.machine.state.table.mappings,
    BearsOut wiring system.ledger mapping

namespace Truthful

/-- Where a seed and an account share an address, they share the class reference. -/
theorem classReference_eq (hfree : CollisionFree wiring.hash seeds)
    (htruthful : system.Truthful wiring seeds) {seed : Seed} (hseed : seed ∈ seeds) {place : Int}
    (hplace : seed.address wiring.hash = .ok place) {account : DeployedAccount}
    (hfound : system.ledger.find? place = some account) :
    account.classReference = seed.classReference := by
  -- the account was made from a seed of its own, which has the same address
  obtain ⟨origin, horigin, haddress, hclass⟩ :=
    htruthful.accounts account (Ledger.mem_of_find? hfound)
  rw [Ledger.address_of_find? hfound] at haddress
  rw [← hclass, hfree origin horigin seed hseed place haddress hplace]

theorem idle (wiring : Wiring) (seeds : List Seed) {state : State}
    (hempty : state.table = .empty) : (System.idle state .empty).Truthful wiring seeds where
  coherent := .idle wiring state
  accounts := fun _ hmem => absurd hmem List.not_mem_nil
  plans := fun _ hmem => absurd hmem List.not_mem_nil
  mappings := by
    intro mapping hmem
    have hnone : mapping ∈ state.table.mappings := hmem
    rw [hempty] at hnone
    cases hnone

/-! ## The ledger -/

/-- A request whose seed is known adds a known account and takes none away. -/
theorem deploy (htruthful : system.Truthful wiring seeds) {request : DeployRequest}
    (hseeds : system.ledger.seeds wiring.hash request ⊆ seeds) :
    Truthful wiring seeds ⟨system.machine, system.ledger.deploy wiring.hash request⟩ where
  coherent := htruthful.coherent
  plans := htruthful.plans
  accounts := by
    intro account hmem
    by_cases hdeployed : ∃ place, system.ledger.reply wiring.hash request = .deployed place
    · obtain ⟨place, hreply⟩ := hdeployed
      have hmade : account ∈ Ledger.account request place :: system.ledger.accounts := by
        rw [← Ledger.accounts_deploy hreply]
        exact hmem
      rcases List.mem_cons.mp hmade with rfl | hold
      · have hseed : request.seed ∈ system.ledger.seeds wiring.hash request := by
          unfold Ledger.seeds
          rw [hreply]
          exact List.mem_singleton_self _
        exact ⟨request.seed, hseeds hseed, (Ledger.reply_eq_deployed.mp hreply).2.1, rfl⟩
      · exact htruthful.accounts account hold
    · refine htruthful.accounts account ?_
      rw [← Ledger.accounts_deploy_of_ne (not_exists.mp hdeployed)]
      exact hmem
  mappings := by
    intro mapping hmem
    obtain ⟨⟨account, hfound, hclass⟩, hnative⟩ := htruthful.mappings mapping hmem
    exact ⟨⟨account, Ledger.find?_deploy wiring.hash request hfound, hclass⟩, hnative⟩

/-! ## The registry -/

/-- An event of the registry keeps the system truthful if the ledger bears out what it writes and
the seeds of what it plans are known. -/
theorem machine_step (hstandard : wiring.Standard) (htruthful : system.Truthful wiring seeds)
    (event : AccountRegistry.Event)
    (hwrites : ∀ mapping, Machine.Writes wiring system.machine event mapping →
      system.machine.state.table.Admits mapping → BearsOut wiring system.ledger mapping)
    (hasks : ∀ call, event = .call call → call.seeds wiring system.machine.state ⊆ seeds) :
    Truthful wiring seeds ⟨(system.machine.step wiring event).machine, system.ledger⟩ where
  coherent := htruthful.coherent.step hstandard event
  accounts := htruthful.accounts
  plans := by
    intro waiting hmem hcall
    rcases Machine.step_waiting wiring system.machine event with hkept |
      ⟨call, plan, hevent, hasked, hjoined⟩ | ⟨latest, reply, -, hleft⟩
    · exact htruthful.plans waiting (hkept ▸ hmem) hcall
    · -- a call that joins was planned just now, and planning derives the address
      rcases List.mem_cons.mp (hjoined ▸ hmem) with rfl | hold
      · rcases Registry.begin_asks hstandard hasked with hbare |
          ⟨evm, kind, code, hwants, hplan, hadmits⟩
        · exact absurd hbare (hcall plan)
        · have hunmapped := hadmits.unmapped
          obtain ⟨rfl, -⟩ := Provisioning.plan_derived hplan
          exact hasks call hevent (hwants.seed_mem hstandard hunmapped hplan)
      · exact htruthful.plans waiting hold hcall
    · refine htruthful.plans waiting ?_ hcall
      rw [hleft]
      exact List.mem_cons_of_mem _ hmem
  mappings := by
    intro mapping hmem
    rcases Machine.step_table hstandard system.machine event with hkept |
      ⟨written, hwritten, hadmits, htable⟩
    · exact htruthful.mappings mapping (hkept ▸ hmem)
    · have hcases : mapping ∈ written :: system.machine.state.table.mappings := by
        rw [← AddressTable.mappings_add, ← htable]
        exact hmem
      rcases List.mem_cons.mp hcases with rfl | hold
      · exact hwrites mapping hwritten hadmits
      · exact htruthful.mappings mapping hold

/-- A registration is true: the account that the ledger shows was derived for its address, so its
class reference is the current proxy reference. -/
theorem step_call (hstandard : wiring.Standard) (hfree : CollisionFree wiring.hash seeds)
    (htruthful : system.Truthful wiring seeds) (call : Call)
    (hseeds : call.seeds wiring system.machine.state ⊆ seeds) :
    (system.step wiring (.call call)).system.Truthful wiring seeds := by
  rw [System.step_call]
  refine htruthful.machine_step hstandard _ ?_ ?_
  · intro mapping hwrites hadmits
    obtain ⟨caller, evm, given, account, rfl, hfound, hderived, rfl⟩ := hwrites.of_informed rfl
    obtain ⟨reference, hmade, hnative⟩ := Wiring.derived_of_derive hstandard hderived
    have hunmapped : system.machine.state.table.find? evm = none := hadmits.unmapped
    have hseed : Seed.ofAccount wiring.identity.deployer reference evm ∈ seeds := by
      refine hseeds ?_
      simp [Call.seeds, hunmapped, hmade]
    have hclass : account.classReference = reference :=
      htruthful.classReference_eq hfree hseed hnative hfound
    refine ⟨⟨account, hfound, rfl⟩, ?_⟩
    show Derivation.accountAddress wiring.hash account.classReference evm _ = .ok caller
    rw [hclass]
    exact hnative
  · intro informed hevent
    cases hevent
    rw [Call.seeds_informed]
    exact hseeds

/-- A confirmed plan is true if an account lives at its address: that account was made from the
seed of the plan, no matter who asked for it. -/
theorem reply_step (hstandard : wiring.Standard) (hfree : CollisionFree wiring.hash seeds)
    (htruthful : system.Truthful wiring seeds) (reply : HostReply)
    (hconfirmed : ∀ call plan rest, system.machine.waiting = ⟨call, plan⟩ :: rest →
      plan.Derived wiring.hash wiring.identity.deployer → reply.Confirms plan →
        ∃ account, system.ledger.find? plan.nativeAddress = some account) :
    Truthful wiring seeds
      ⟨(system.machine.step wiring (.reply reply)).machine, system.ledger⟩ := by
  refine htruthful.machine_step hstandard _ ?_ ?_
  · intro mapping hwrites _
    cases hwrites with
    | @provisioned call plan rest _ hwaiting hcall hconfirms =>
        have hderived := (htruthful.coherent.latest hwaiting hcall).2
        obtain ⟨account, hfound⟩ := hconfirmed call plan rest hwaiting hderived hconfirms
        have hseed : plan.request.seed ∈ seeds := by
          refine htruthful.plans ⟨call, plan⟩ ?_ hcall
          rw [hwaiting]
          exact List.mem_cons_self
        have hclass : account.classReference = plan.request.classReference :=
          htruthful.classReference_eq hfree hseed (Ledger.address_of_derived hderived) hfound
        exact ⟨⟨account, hfound, hclass⟩, hderived.native⟩
  · intro call hevent
    cases hevent

/-- The ledger takes the request of the latest waiting call; what it replies is then so. -/
theorem step_deploy (hstandard : wiring.Standard) (hfree : CollisionFree wiring.hash seeds)
    (htruthful : system.Truthful wiring seeds)
    (hseeds : system.seeds wiring .deploy ⊆ seeds) :
    (system.step wiring .deploy).system.Truthful wiring seeds := by
  cases hwaiting : system.machine.waiting with
  | nil =>
      rw [step_deploy_nil hwaiting]
      exact htruthful
  | cons waiting rest =>
      rw [step_deploy_cons hwaiting]
      have hdeployed : Truthful wiring seeds
          ⟨system.machine, system.ledger.deploy wiring.hash waiting.plan.request⟩ := by
        refine htruthful.deploy ?_
        unfold System.seeds at hseeds
        rw [pending?_cons hwaiting] at hseeds
        exact hseeds
      -- the ledger comes first: what it replies is so on the ledger that the registry then sees
      refine hdeployed.reply_step hstandard hfree _ ?_
      intro call plan others hlatest hderived hconfirms
      have hsame : ⟨call, plan⟩ :: others = waiting :: rest := hlatest.symm.trans hwaiting
      obtain ⟨rfl, rfl⟩ := List.cons.inj hsame
      exact Ledger.find?_deploy_of_confirms hderived hconfirms

/-- Every event over the ledger in memory keeps the system truthful. -/
theorem step (hstandard : wiring.Standard) (hfree : CollisionFree wiring.hash seeds)
    (event : Event) (hgenuine : event.Genuine) (hseeds : system.seeds wiring event ⊆ seeds)
    (htruthful : system.Truthful wiring seeds) :
    (system.step wiring event).system.Truthful wiring seeds := by
  cases event with
  | call call => exact htruthful.step_call hstandard hfree call hseeds
  | deploy => exact htruthful.step_deploy hstandard hfree hseeds
  | reply reply =>
      obtain ⟨fault, rfl⟩ := hgenuine
      refine htruthful.reply_step hstandard hfree (.threw fault) ?_
      intro call plan rest _ _ hconfirms
      cases hconfirms
  | request request => exact htruthful.deploy hseeds
  | reject rejection =>
      exact ⟨htruthful.coherent, htruthful.accounts, htruthful.plans, htruthful.mappings⟩

end Truthful

/-! ## Every run -/

/-- In every reachable state of an open system whose seeds do not collide, an account with the class
reference of the mapping lives at the native address of each mapping, and that address is the one
derived from this class reference, whatever the proxy reference is by now. -/
theorem mappings_tell_the_truth {hash : Hash} {setup : Setup} {launched : Launched}
    (hcreated : Launched.create hash setup = .ok launched) (events : List Event)
    (hgenuine : ∀ event ∈ events, event.Genuine)
    (hfree : CollisionFree hash ((idle launched.state .empty).runSeeds launched.wiring events)) :
    let system := (idle launched.state .empty).run launched.wiring events
    ∀ evm mapping, system.machine.state.table.find? evm = some mapping →
      (∃ account, system.ledger.find? mapping.nativeAddress = some account ∧
        account.classReference = mapping.classReference) ∧
      Derivation.accountAddress hash mapping.classReference mapping.evmAddress
        launched.wiring.identity.deployer = .ok mapping.nativeAddress := by
  intro system evm mapping hfound
  have hstandard : launched.wiring.Standard := Launched.create_standard hcreated
  have hhash : launched.wiring.hash = hash := Launched.create_hash hcreated
  rw [← hhash] at hfree
  have hseeds : (idle launched.state .empty).Obeys launched.wiring (fun system event =>
      system.seeds launched.wiring event ⊆
        (idle launched.state .empty).runSeeds launched.wiring events) events :=
    obeys_of_runSeeds (List.Subset.refl _)
  have htruthful : system.Truthful launched.wiring
      ((idle launched.state .empty).runSeeds launched.wiring events) :=
    run_induction
      (fun _ event hrule htruthful => htruthful.step hstandard hfree event hrule.1 hrule.2)
      (.idle _ _ (Launched.create_table hcreated)) ((obeys_of_forall hgenuine).and hseeds)
  rw [← hhash]
  exact htruthful.mappings mapping (AddressTable.mem_of_find? hfound)

/-- Under the hash that reads the last word, the account of an address lives at that address.  While
one account waits for its deployment, the proxy reference is overwritten, and an account that was
requested from elsewhere under the new reference registers itself. -/
theorem mappings_tell_the_truth_after_upgrade :
    let events : List Event :=
      [.call (.setClassReference 2 "proxy" 9), .call (.resolve 7),
        .call (.setClassReference 2 "proxy" 10),
        .request ⟨10, [1, 8], 8, 1, ⟨"eoa", none, "0x"⟩⟩, .call (.register 8 8 none), .deploy]
    let system := (idle (Launched.small Word.ofBytes).state .empty).run
      (Launched.small Word.ofBytes).wiring events
    system.machine.state.table.mappings = [⟨7, 7, "eoa", 9⟩, ⟨8, 8, "eoa", 10⟩] ∧
      (∃ account, system.ledger.find? 7 = some account ∧ account.classReference = 9) ∧
      Derivation.accountAddress Word.ofBytes 9 7 1 = .ok 7 := by
  intro events system
  have hgenuine : ∀ event ∈ events, event.Genuine := by simp [events, Event.Genuine]
  have hfree : CollisionFree Word.ofBytes
      ((idle (Launched.small Word.ofBytes).state .empty).runSeeds
        (Launched.small Word.ofBytes).wiring events) :=
    .of_toOption (by decide +kernel)
  have htruth := mappings_tell_the_truth (Launched.create_small Word.ofBytes) events hgenuine hfree
  exact ⟨by decide +kernel, htruth 7 ⟨7, 7, "eoa", 9⟩ (by decide +kernel)⟩

end AccountRegistry.System
