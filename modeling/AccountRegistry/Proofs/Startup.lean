import AccountRegistry.Proofs.History
import AccountRegistry.Proofs.SpecRanges

/-!
# What a registry needs to start

A registry starts if the addresses of its identity and everything that its spec sets are in range.
Creation checks the identity, genesis checks the rest on new slots, where every write fits; so what
ends a start is the first fault of the setup in a fixed order (`Setup.faults`).

* `Write.performAll_fresh`: a list of writes to new slots ends with the first of their faults.
* `Spec.afterAll_writes`: what the writes of a spec leave in new slots.
* `Launched.start_cases`: a start ends with the first fault, or in the state of the spec.
* `starts_exactly_when_valid`: the conditions spelled out, and all that holds after the start.
-/

namespace AccountRegistry

open Procedure

/-! ## Writes to new slots -/

/-- A list of writes to different slots, of which that of the native token is free, ends with the
first fault of their values. -/
theorem Write.performAll_fresh {state : State} (hvalid : state.Valid) {writes : List Write}
    (hnodup : (writes.map Write.slot).Nodup) (howner : ∀ write ∈ writes, write.slot ≠ .owner)
    (hfits : ∀ write ∈ writes, write.Fits state.slots) :
    (performAll state.owner writes state).outcome =
      match (writes.flatMap Write.faults).head? with
      | none => .ok ()
      | some fault => .error (.failed fault) := by
  induction writes generalizing state with
  | nil => rfl
  | cons write rest ih =>
      rw [List.map_cons, List.nodup_cons] at hnodup
      obtain ⟨hslot, hothers⟩ := List.forall_mem_cons.mp howner
      obtain ⟨hfit, hrest⟩ := List.forall_mem_cons.mp hfits
      have hrun : performAll state.owner (write :: rest) state =
          (write.perform state.owner >>= fun _ => performAll state.owner rest) state := rfl
      rw [hrun, List.flatMap_cons]
      cases hfaults : write.faults with
      | cons fault others =>
          obtain ⟨houtcome, -⟩ := perform_faulty hfit (by rw [hfaults]; rfl)
          rw [bind_of_error _ houtcome]
          rfl
      | nil =>
          obtain ⟨houtcome, hstate⟩ := perform_granted hvalid ⟨hfit, hfaults⟩
          let next := state.withSlots (state.slots.after write)
          have hnext : next.Valid := by
            have hkept := (write.perform_guarded state.owner state hvalid).1
            rwa [hstate] at hkept
          have hsame : next.owner = state.owner := Slots.owner_after state.slots hslot
          -- the token is still free for the rest, which has no part in the slot of this write
          have hfree : ∀ other ∈ rest, other.Fits next.slots := by
            intro other hother
            have hfit := hrest other hother
            cases other with
            | nativeToken address =>
                have hdifferent : write.slot ≠ .nativeToken := by
                  intro hsame
                  exact hnodup.1 (by rw [hsame]; exact List.mem_map_of_mem hother)
                exact (Slots.nativeToken_after state.slots hdifferent).trans hfit
            | _ => trivial
          have hended := ih hnext hnodup.2 hothers hfree
          rw [hsame] at hended
          rw [bind_of_ok _ houtcome, hstate]
          exact hended

/-! ## What a spec leaves in new slots -/

theorem ClassReferences.eq_of_slot {first second : ClassReferences}
    (hslot : ∀ kind, first.slot kind = second.slot kind) : first = second := by
  obtain ⟨precompile, contractAccount, eoa, proxy⟩ := first
  have hprecompile := hslot .precompile
  have hcontractAccount := hslot .contractAccount
  have heoa := hslot .eoa
  have hproxy := hslot .proxy
  simp only [slot] at hprecompile hcontractAccount heoa hproxy
  rw [hprecompile, hcontractAccount, heoa, hproxy]

namespace Spec

/-- The slots of a registry that is configured by a spec. -/
def slots (spec : Spec) (owner : Int) : Slots where
  owner := owner
  references :=
    let slot (kind : ClassKind) : Option ReferenceSlot :=
      (spec.reference? kind).map fun reference => ⟨reference, 1⟩
    ⟨slot .precompile, slot .contractAccount, slot .eoa, slot .proxy⟩
  nativeToken := spec.nativeToken
  context := spec.chainContext.map fun context => ⟨context.coinbase, context.baseFee, 1⟩

theorem slot_slots (spec : Spec) (owner : Int) (kind : ClassKind) :
    (spec.slots owner).references.slot kind =
      (spec.reference? kind).map fun reference => ⟨reference, 1⟩ := by
  cases kind <;> rfl

/-- The part of some slots in the writes of a spec. -/
theorem filterMap_writes {α : Type} (spec : Spec) (part : Write → Option α) :
    spec.writes.filterMap part =
      ClassKind.all.filterMap (fun kind =>
        (spec.reference? kind).bind fun value => part (.reference kind value)) ++
      (spec.nativeToken.bind fun token => part (.nativeToken token)).toList ++
      (spec.chainContext.bind fun context =>
        part (.context context.coinbase context.baseFee)).toList := by
  have hone {β : Type} (value : Option β) (write : β → Write) :
      (value.map write).toList.filterMap part =
        (value.bind fun value => part (write value)).toList := by
    cases value with
    | none => rfl
    | some value =>
        show [write value].filterMap part = (part (write value)).toList
        rw [List.filterMap_cons]
        cases part (write value) <;> rfl
  rw [writes, referenceWrites, List.filterMap_append, List.filterMap_append,
    List.filterMap_filterMap, hone, hone]
  simp only [Option.bind_map, Function.comp_def]

theorem references_writes (spec : Spec) (kind : ClassKind) :
    spec.writes.filterMap (Write.reference? kind) = (spec.reference? kind).toList := by
  have hpart (other : ClassKind) :
      ((spec.reference? other).bind fun value =>
          Write.reference? kind (.reference other value)) =
        if other = kind then spec.reference? kind else none := by
    by_cases hkind : other = kind
    · rw [if_pos hkind, hkind]
      cases spec.reference? kind <;> simp [Write.reference?]
    · rw [if_neg hkind]
      cases spec.reference? other <;> simp [Write.reference?, hkind]
  have hothers : (spec.nativeToken.bind fun token => Write.reference? kind (.nativeToken token)) =
      none ∧ (spec.chainContext.bind fun context =>
        Write.reference? kind (.context context.coinbase context.baseFee)) = none :=
    ⟨Option.bind_fun_none _, Option.bind_fun_none _⟩
  rw [filterMap_writes, hothers.1, hothers.2]
  simp only [hpart]
  generalize spec.reference? kind = reference
  cases kind <;> cases reference <;> rfl

theorem contexts_writes (spec : Spec) :
    spec.writes.filterMap Write.context? = spec.chainContext.toList := by
  rw [filterMap_writes]
  cases spec.chainContext <;> simp [Write.context?]

theorem tokens_writes (spec : Spec) :
    spec.writes.filterMap Write.nativeToken? = spec.nativeToken.toList := by
  rw [filterMap_writes]
  cases spec.nativeToken <;> simp [Write.nativeToken?]

theorem owners_writes (spec : Spec) : spec.writes.filterMap Write.owner? = [] := by
  rw [List.filterMap_eq_nil_iff]
  intro write hmem
  cases write with
  | owner newOwner => exact absurd rfl (slot_of_mem_writes hmem)
  | _ => rfl

/-- What the writes of a spec leave in new slots. -/
theorem afterAll_writes (spec : Spec) (owner : Int)
    (hadmits : (Slots.fresh owner).Admits spec.writes) :
    (Slots.fresh owner).afterAll spec.writes = spec.slots owner := by
  have hreferences : ((Slots.fresh owner).afterAll spec.writes).references =
      (spec.slots owner).references := by
    refine ClassReferences.eq_of_slot fun kind => ?_
    rw [Slots.slot_afterAll, slot_slots, references_writes]
    cases spec.reference? kind <;> rfl
  have hcontext : ((Slots.fresh owner).afterAll spec.writes).context =
      (spec.slots owner).context := by
    rw [Slots.context_afterAll, contexts_writes, slots]
    cases spec.chainContext <;> rfl
  have htoken : ((Slots.fresh owner).afterAll spec.writes).nativeToken = spec.nativeToken := by
    rw [(Slots.nativeToken_afterAll owner hadmits).2, tokens_writes]
    cases spec.nativeToken <;> rfl
  have howner : ((Slots.fresh owner).afterAll spec.writes).owner = owner := by
    rw [Slots.owner_afterAll, owners_writes]
    rfl
  exact Slots.ext howner hreferences htoken hcontext

/-- The writes of a spec come from its values. -/
theorem mem_writes {spec : Spec} {write : Write} :
    write ∈ spec.writes ↔
      (∃ kind value, spec.reference? kind = some value ∧ write = .reference kind value) ∨
      (∃ token, spec.nativeToken = some token ∧ write = .nativeToken token) ∨
      ∃ context, spec.chainContext = some context ∧
        write = .context context.coinbase context.baseFee := by
  simp only [writes, referenceWrites, List.mem_append, List.mem_filterMap, Option.mem_toList,
    Option.map_eq_some_iff, ClassKind.mem_all, true_and, or_assoc, eq_comm (b := write)]

end Spec

/-! ## What keeps a setup from starting -/

namespace Setup

/-- The native address of the registry that a setup makes. -/
def deployer (setup : Setup) : Int :=
  setup.overrides.deployer.getD setup.spec.deployer

/-- The owner that the registry of a setup starts with. -/
def owner (setup : Setup) : Int :=
  setup.overrides.owner.getD setup.spec.owner

/-- The faults of the identity, and then those of the writes of genesis. -/
def faults (setup : Setup) : List Fault :=
  Fault.unless (Address.IsNative setup.deployer)
      (Identity.outOfRange "deployer" setup.deployer) ++
    Fault.unless (Address.IsNative setup.owner) (Identity.outOfRange "owner" setup.owner) ++
    setup.spec.writes.flatMap Write.faults

/-- Every address, class reference and fee that a start looks at is in range. -/
structure Startable (setup : Setup) : Prop where
  deployer : Address.IsNative setup.deployer
  owner : Address.IsNative setup.owner
  references : ∀ kind reference, setup.spec.reference? kind = some reference →
    Address.IsClassReference reference
  nativeToken : ∀ token, setup.spec.nativeToken = some token → Address.IsNative token
  context : ∀ context, setup.spec.chainContext = some context →
    Address.IsNative context.coinbase ∧ 0 ≤ context.baseFee

theorem faults_eq_nil {setup : Setup} : setup.faults = [] ↔ setup.Startable := by
  simp only [faults, List.append_eq_nil_iff, Fault.unless_eq_nil, List.flatMap_eq_nil_iff,
    Spec.mem_writes]
  constructor
  · rintro ⟨⟨hdeployer, howner⟩, hwrites⟩
    refine ⟨hdeployer, howner, ?_, ?_, ?_⟩
    · intro kind reference hreference
      exact Fault.unless_eq_nil.mp (hwrites _ (.inl ⟨kind, reference, hreference, rfl⟩))
    · intro token htoken
      exact Fault.unless_eq_nil.mp (hwrites _ (.inr (.inl ⟨token, htoken, rfl⟩)))
    · intro context hcontext
      obtain ⟨hcoinbase, hfee⟩ :=
        List.append_eq_nil_iff.mp (hwrites _ (.inr (.inr ⟨context, hcontext, rfl⟩)))
      exact ⟨Fault.unless_eq_nil.mp hcoinbase, Fault.unless_eq_nil.mp hfee⟩
  · rintro ⟨hdeployer, howner, hreferences, htoken, hcontext⟩
    refine ⟨⟨hdeployer, howner⟩, ?_⟩
    rintro write (⟨kind, value, hvalue, rfl⟩ | ⟨token, hvalue, rfl⟩ | ⟨context, hvalue, rfl⟩)
    · exact Fault.unless_eq_nil.mpr (hreferences kind value hvalue)
    · exact Fault.unless_eq_nil.mpr (htoken token hvalue)
    · obtain ⟨hcoinbase, hfee⟩ := hcontext context hvalue
      exact List.append_eq_nil_iff.mpr
        ⟨Fault.unless_eq_nil.mpr hcoinbase, Fault.unless_eq_nil.mpr hfee⟩

/-- A spec in range can be started under addresses in range. -/
theorem startable_of_inRange {setup : Setup} (hspec : setup.spec.InRange)
    (hdeployer : ∀ deployer, setup.overrides.deployer = some deployer → Address.IsNative deployer)
    (howner : ∀ owner, setup.overrides.owner = some owner → Address.IsNative owner) :
    setup.Startable where
  deployer := by
    unfold deployer
    cases hoverride : setup.overrides.deployer with
    | none => exact hspec.deployer
    | some address => exact hdeployer address hoverride
  owner := by
    unfold owner
    cases hoverride : setup.overrides.owner with
    | none => exact hspec.owner
    | some address => exact howner address hoverride
  references := by
    intro kind reference hreference
    obtain ⟨before, later, hentries, -⟩ := List.lookup_eq_some_iff.mp hreference
    exact hspec.references (kind.specKey, reference) (by rw [hentries]; simp)
  nativeToken := hspec.nativeToken
  context := hspec.context

/-- The identity that a setup gives a registry. -/
def identity (setup : Setup) : Identity :=
  ⟨setup.spec.id, setup.spec.chainId, setup.deployer, setup.owner⟩

/-- The wiring of a setup. -/
def wiring (setup : Setup) (hash : Hash) : Wiring :=
  ⟨hash, setup.identity, setup.spec, Wiring.registered setup.withGenesis,
    .standard hash setup.deployer⟩

end Setup

/-! ## Starting -/

namespace Launched

/-- Creation checks the two addresses of the identity. -/
theorem create_cases (hash : Hash) (setup : Setup) :
    (∃ fault, setup.faults.head? = some fault ∧ create hash setup = .error fault) ∨
      (setup.faults = setup.spec.writes.flatMap Write.faults ∧
        create hash setup = .ok ⟨setup.wiring hash, .initial setup.owner setup.code,
          (setup.wiring hash).log⟩) := by
  have hidentity : Identity.ofSpec setup.spec setup.overrides =
      if ¬ Address.IsNative setup.deployer then
        .error (Identity.outOfRange "deployer" setup.deployer)
      else if ¬ Address.IsNative setup.owner then
        .error (Identity.outOfRange "owner" setup.owner)
      else .ok setup.identity := rfl
  rw [create, Wiring.create, hidentity, Setup.faults]
  by_cases hdeployer : Address.IsNative setup.deployer
  · rw [if_neg (not_not.mpr hdeployer), Fault.unless_eq_nil.mpr hdeployer]
    by_cases howner : Address.IsNative setup.owner
    · rw [if_neg (not_not.mpr howner), Fault.unless_eq_nil.mpr howner]
      exact .inr ⟨rfl, rfl⟩
    · rw [if_pos howner, Fault.unless, if_neg howner]
      exact .inl ⟨_, rfl, rfl⟩
  · rw [if_pos hdeployer, Fault.unless, if_neg hdeployer]
    exact .inl ⟨_, rfl, rfl⟩

end Launched

namespace State

/-- The state of services that hold something in their slots and did nothing else yet. -/
def holding (slots : Slots) (code : List (Int × String)) (initialized running : List ServiceId) :
    State :=
  ⟨slots.owner, slots.references, slots.nativeToken, slots.context, .empty, code, initialized,
    running⟩

theorem markAllInitialized_eq (state : State) (services : List ServiceId) :
    state.markAllInitialized services =
      { state with initialized := services.foldl including state.initialized } := by
  induction services generalizing state with
  | nil => rfl
  | cons service rest ih => exact ih _

theorem markAllRunning_eq (state : State) (services : List ServiceId) :
    services.foldl markRunning state =
      { state with running := services.foldl including state.running } := by
  induction services generalizing state with
  | nil => rfl
  | cons service rest ih => exact ih _

/-- New services are all initialized when genesis is done. -/
theorem initialized_all (owner : Int) (slots : Slots) (code : List (Int × String)) :
    (((initial owner code).markAllInitialized ServiceId.standing).withSlots slots).markInitialized
      .genesis = holding slots code ServiceId.all [] := by
  have hall : including (ServiceId.standing.foldl including []) .genesis = ServiceId.all := by
    decide
  have hmarked : (((initial owner code).markAllInitialized ServiceId.standing).withSlots
      slots).markInitialized .genesis =
      holding slots code (including (ServiceId.standing.foldl including []) .genesis) [] := by
    rw [markAllInitialized_eq]
    rfl
  rw [hmarked, hall]

theorem running_all (slots : Slots) (code : List (Int × String)) (initialized : List ServiceId) :
    ServiceId.all.foldl markRunning (holding slots code initialized []) =
      holding slots code initialized ServiceId.all := by
  have hall : ServiceId.all.foldl including [] = ServiceId.all := by decide
  have hmarked : ServiceId.all.foldl markRunning (holding slots code initialized []) =
      holding slots code initialized (ServiceId.all.foldl including []) :=
    markAllRunning_eq _ _
  rw [hmarked, hall]

end State

/-- Genesis on new slots ends with the first fault of the writes of its spec, or leaves what the
spec sets. -/
theorem Genesis.init_fresh {state : State} (hvalid : state.Valid)
    (hopen : state.genesisDone = false) {owner : Int} (hfresh : state.slots = .fresh owner)
    (spec : Spec) :
    (∃ fault, (spec.writes.flatMap Write.faults).head? = some fault ∧
      (init spec state).outcome = .error (.failed fault)) ∨
    (spec.writes.flatMap Write.faults = [] ∧ (init spec state).outcome = .ok () ∧
      (init spec state).state =
        (state.withSlots (spec.slots owner)).markInitialized .genesis) := by
  obtain ⟨houtcome, -⟩ := init_of_open spec hopen
  -- every write fits into new slots
  have hfits (write : Write) : write.Fits state.slots := by
    rw [hfresh]
    cases write <;> trivial
  have hended := Write.performAll_fresh hvalid spec.nodup_writes
    (fun _ => Spec.slot_of_mem_writes) fun write _ => hfits write
  cases hfault : (spec.writes.flatMap Write.faults).head? with
  | some fault =>
      rw [hfault] at hended
      exact .inl ⟨fault, rfl, houtcome.trans hended⟩
  | none =>
      rw [hfault] at hended
      have hok : (init spec state).outcome = .ok () := houtcome.trans hended
      rcases init_cases hvalid spec with
        ⟨hdone, -⟩ | ⟨-, hall, -, hstate⟩ | ⟨-, -, ⟨fault, herror, -⟩, -⟩
      · cases hopen.symm.trans hdone
      · rw [hfresh] at hall hstate
        rw [Spec.afterAll_writes spec owner hall] at hstate
        exact .inr ⟨List.head?_eq_none_iff.mp hfault, hok, hstate⟩
      · cases hok.symm.trans herror

namespace Wiring

variable {wiring : Wiring} {state : State}

/-- The start of a service only marks it. -/
theorem startAll_eq (wiring : Wiring) (state : State) :
    Lifecycle.startAll wiring.roster state =
      ⟨.ok (), wiring.services.foldl State.markRunning state, []⟩ := by
  have hmarks (id : ServiceId) : Lifecycle.Service.start (wiring.service id) =
      Procedure.modify fun state => state.markRunning id := rfl
  exact Lifecycle.runInOrder_marks (fun id state => state.markRunning id)
    (fun id _ => hmarks id) state

/-- New services are started as genesis allows. -/
theorem startUp_cases (hservices : wiring.services = ServiceId.all) {owner : Int}
    (howner : Address.IsNative owner) (code : List (Int × String)) :
    let run := wiring.startUp (.initial owner code)
    (∃ fault, (wiring.spec.writes.flatMap Write.faults).head? = some fault ∧
      run.outcome = .error (.failed fault)) ∨
    (wiring.spec.writes.flatMap Write.faults = [] ∧ run.outcome = .ok () ∧
      run.state = .holding (wiring.spec.slots owner) code ServiceId.all ServiceId.all) := by
  intro run
  have hvalid : (State.initial owner code).Valid := .initial howner code
  obtain ⟨hstate, houtcome⟩ := Registry.initAll_eq hservices (.initial owner code)
  rcases Genesis.init_fresh (hvalid.markAllInitialized ServiceId.standing)
      (State.genesisDone_markAllInitialized _ (by decide))
      (State.slots_markAllInitialized _ _) wiring.spec with
    ⟨fault, hfault, herror⟩ | ⟨hfaults, hok, hleft⟩
  · refine .inl ⟨fault, hfault, ?_⟩
    rw [show run = _ from bind_of_error _ (houtcome.trans herror)]
  · have hrun := bind_of_ok (fun _ => Lifecycle.startAll wiring.roster) (houtcome.trans hok)
    rw [hstate, hleft, State.initialized_all, startAll_eq, hservices, State.running_all] at hrun
    rw [show run = _ from hrun]
    exact .inr ⟨hfaults, rfl, rfl⟩

/-- A call of all services that succeeds leaves an idle system over the same ledger. -/
theorem step_lifecycle {call : Call} {transition : Procedure State Unit} (state : State)
    (ledger : Ledger) (hinformed : call.informed ledger.find? = call)
    (hbegin : Registry.begin wiring call = Registry.finishing transition fun _ => .flag true)
    (hok : (transition state).outcome = .ok ()) :
    ((System.idle state ledger).step wiring (.call call)).system =
      .idle (transition state).state ledger := by
  have hended : (Registry.begin wiring call (Machine.idle state).state).outcome =
      .ok (.finished (.flag true)) := by
    rw [hbegin]
    exact Registry.finishing_ok hok _
  have hleft : (Registry.begin wiring call state).state = (transition state).state := by
    rw [hbegin, Registry.finishing_state]
  have hmachine := (Machine.step_of_finished hended).1
  show (⟨((Machine.idle state).step wiring (.call (call.informed ledger.find?))).machine, ledger⟩ :
    System) = _
  rw [hinformed, hmachine]
  show (⟨⟨(Registry.begin wiring call state).state, []⟩, ledger⟩ : System) = _
  rw [hleft]
  rfl

/-- Initialization and start are two calls of the registry, which leave a ledger as it is. -/
theorem run_startUp (hstarted : (wiring.startUp state).outcome = .ok ()) (ledger : Ledger) :
    (System.idle state ledger).run wiring [.call .initAll, .call .startAll] =
      .idle (wiring.startUp state).state ledger := by
  cases hinit : (Lifecycle.initAll wiring.roster state).outcome with
  | error stop =>
      rw [startUp, bind_of_error _ hinit] at hstarted
      cases hstarted
  | ok _ =>
      rw [startUp, bind_of_ok _ hinit] at hstarted ⊢
      have hinitAll : Registry.begin wiring .initAll =
          Registry.finishing (Lifecycle.initAll wiring.roster) fun _ => .flag true := rfl
      have hstartAll : Registry.begin wiring .startAll =
          Registry.finishing (Lifecycle.startAll wiring.roster) fun _ => .flag true := rfl
      rw [System.run, step_lifecycle state ledger rfl hinitAll hinit, System.run,
        step_lifecycle _ ledger rfl hstartAll hstarted, System.run]

end Wiring

namespace Launched

/-- What was created is started, or the reason why not is passed on. -/
theorem start_of_created {hash : Hash} {setup : Setup} {created : Launched}
    (hcreated : create hash setup = .ok created) :
    let run := created.wiring.startUp created.state
    (start hash setup).1 = match run.outcome with
      | .ok () => .ok ⟨created.wiring, run.state, created.log ++ run.log⟩
      | .error stop => .error stop := by
  intro run
  unfold start
  rw [hcreated]
  dsimp only
  cases (created.wiring.startUp created.state).outcome <;> rfl

/-- A registry with genesis does not start for the first fault of its setup, or is started in the
state of its spec. -/
theorem start_cases (hash : Hash) {setup : Setup} (hgenesis : setup.withGenesis = true) :
    (∃ fault, setup.faults.head? = some fault ∧
      (start hash setup).1 = .error (.failed fault)) ∨
    (setup.faults = [] ∧ ∃ created launched,
      create hash setup = .ok created ∧ (start hash setup).1 = .ok launched ∧
      launched.wiring = setup.wiring hash ∧
      launched.state =
        .holding (setup.spec.slots setup.owner) setup.code ServiceId.all ServiceId.all ∧
      ∀ ledger, (System.idle created.state ledger).run launched.wiring
        [.call .initAll, .call .startAll] = .idle launched.state ledger) := by
  rcases create_cases hash setup with ⟨fault, hfault, hcreate⟩ | ⟨hfaults, hcreate⟩
  · rw [start, hcreate]
    exact .inl ⟨fault, hfault, rfl⟩
  · have hservices : (setup.wiring hash).services = ServiceId.all := by
      rw [Setup.wiring, hgenesis]
      rfl
    have hstart := start_of_created hcreate
    have howner : Address.IsNative setup.owner :=
      (Wiring.create_isNative (create_eq_ok hcreate).1).2
    rw [hfaults]
    dsimp only at hstart
    rcases Wiring.startUp_cases hservices howner setup.code with
      ⟨fault, hfault, herror⟩ | ⟨hnone, hok, hstate⟩
    · rw [herror] at hstart
      exact .inl ⟨fault, hfault, hstart⟩
    · rw [hok] at hstart
      refine .inr ⟨hnone, _, _, hcreate, hstart, rfl, hstate, fun ledger => ?_⟩
      exact Wiring.run_startUp hok ledger

end Launched

/-! ## Every setup -/

/-- A registry with genesis starts exactly if everything that its start looks at is in range, and
otherwise its start ends with the first fault of the setup, and never escapes.  A registry that was
started has the identity of its setup, holds in its slots what the spec sets for the first time and
nothing else, maps no address, and all its services are initialized and run; it took no more than
the calls that initialize and start them, which leave any ledger as it is.  So every spec that was
validated starts, by itself as well as under the overrides of an environment that was read. -/
theorem starts_exactly_when_valid (hash : Hash) (spec : Spec) (overrides : Overrides)
    (code : List (Int × String)) :
    let setup : Setup := ⟨spec, overrides, code, true⟩
    let outcome := (Launched.start hash setup).1
    ((∃ launched, outcome = .ok launched) ↔ setup.Startable) ∧
    (∀ stop, outcome = .error stop →
      ∃ fault, stop = .failed fault ∧ setup.faults.head? = some fault) ∧
    (∀ launched, outcome = .ok launched →
      let state := launched.state
      launched.wiring.identity = ⟨spec.id, spec.chainId, setup.deployer, setup.owner⟩ ∧
      state.owner = setup.owner ∧
      (∀ kind, state.references.slot kind =
        (spec.reference? kind).map fun reference => ⟨reference, 1⟩) ∧
      state.nativeToken = spec.nativeToken ∧
      state.context =
        spec.chainContext.map (fun context => ⟨context.coinbase, context.baseFee, 1⟩) ∧
      state.table = .empty ∧
      state.code = code ∧
      Lifecycle.statuses launched.wiring.roster state =
        ServiceId.all.map (fun id => ⟨id.label, true, true⟩) ∧
      ∃ created, Launched.create hash setup = .ok created ∧
        ∀ ledger, (System.idle created.state ledger).run launched.wiring
          [.call .initAll, .call .startAll] = .idle state ledger) ∧
    ∀ data environment settings, Spec.validate data = .ok spec →
      Settings.load Settings.readRegistry environment = .ok settings →
      overrides = ⟨none, none⟩ ∨ overrides = Settings.overrides settings →
      ∃ launched, outcome = .ok launched := by
  intro setup outcome
  have hgenesis : setup.withGenesis = true := rfl
  have hcases := Launched.start_cases hash hgenesis
  have hstarts : (∃ launched, outcome = .ok launched) ↔ setup.Startable := by
    rw [← Setup.faults_eq_nil]
    rcases hcases with ⟨fault, hfault, herror⟩ | ⟨hnone, created, launched, -, hok, -⟩
    · constructor
      · rintro ⟨launched, hok⟩
        cases herror.symm.trans hok
      · intro hnone
        rw [hnone] at hfault
        cases hfault
    · exact ⟨fun _ => hnone, fun _ => ⟨launched, hok⟩⟩
  refine ⟨hstarts, ?_, ?_, ?_⟩
  · intro stop hstop
    rcases hcases with ⟨fault, hfault, herror⟩ | ⟨-, created, launched, -, hok, -⟩
    · cases herror.symm.trans hstop
      exact ⟨fault, rfl, hfault⟩
    · cases hok.symm.trans hstop
  · intro launched hlaunched state
    rcases hcases with
      ⟨fault, -, herror⟩ | ⟨-, created, started, hcreate, hok, hwiring, hstate, hrun⟩
    · cases herror.symm.trans hlaunched
    · cases hok.symm.trans hlaunched
      have hidentity : launched.wiring.identity = setup.identity := by rw [hwiring]; rfl
      rw [hstate] at hrun
      rw [show state = _ from hstate]
      have hstatuses : Lifecycle.statuses launched.wiring.roster
          (.holding (spec.slots setup.owner) code ServiceId.all ServiceId.all) =
          ServiceId.all.map fun id => ⟨id.label, true, true⟩ := by
        rw [hwiring]
        rfl
      exact ⟨hidentity, rfl, spec.slot_slots setup.owner, rfl, rfl, rfl, rfl, hstatuses, created,
        hcreate, hrun⟩
  · intro data environment settings hspec hsettings hoverrides
    obtain ⟨hdeployer, howner⟩ := Settings.load_overrides hsettings
    rw [hstarts]
    rcases hoverrides with hnone | hsome
    · exact Setup.startable_of_inRange (Spec.validate_inRange hspec)
        (by rw [show setup.overrides = _ from hnone]; exact nofun)
        (by rw [show setup.overrides = _ from hnone]; exact nofun)
    · exact Setup.startable_of_inRange (Spec.validate_inRange hspec)
        (by rwa [show setup.overrides = _ from hsome])
        (by rwa [show setup.overrides = _ from hsome])

/-- The furnished registry starts with the proxy and the native token of its spec; under an owner
that is no address it does not start. -/
theorem starts_exactly_when_valid_under_overrides :
    let spec := Setup.furnished.spec
    let started := (Launched.start .toSalt ⟨spec, ⟨some 3, none⟩, [], true⟩).1
    let stopped := (Launched.start .toSalt ⟨spec, ⟨none, some (-1)⟩, [], true⟩).1
    (∃ launched, started = .ok launched ∧
      launched.wiring.identity.deployer = 3 ∧
      launched.state.references.slot .proxy = some ⟨9, 1⟩ ∧
      launched.state.references.slot .eoa = none ∧
      launched.state.nativeToken = some 5 ∧
      launched.state.context = none) ∧
    stopped = .error (.failed (Identity.outOfRange "owner" (-1))) := by
  intro spec started stopped
  constructor
  · obtain ⟨hstarts, -, hstate, -⟩ :=
      starts_exactly_when_valid .toSalt Setup.furnished.spec ⟨some 3, none⟩ []
    have hstartable := Setup.faults_eq_nil.mp
      (show (⟨spec, ⟨some 3, none⟩, [], true⟩ : Setup).faults = [] by decide)
    obtain ⟨launched, hok⟩ := hstarts.mpr hstartable
    obtain ⟨hidentity, -, hslots, htoken, hcontext, -⟩ := hstate launched hok
    refine ⟨launched, hok, by rw [hidentity]; rfl, ?_, ?_, htoken, hcontext⟩
    · rw [hslots]
      decide
    · rw [hslots]
      decide
  · obtain ⟨hstarts, hstops, -⟩ :=
      starts_exactly_when_valid .toSalt Setup.furnished.spec ⟨none, some (-1)⟩ []
    cases hended : stopped with
    | ok launched =>
        have howner := (hstarts.mp ⟨launched, hended⟩).owner
        exact absurd howner (by decide)
    | error stop =>
        obtain ⟨fault, rfl, hfault⟩ := hstops stop hended
        cases hfault
        rfl

end AccountRegistry
