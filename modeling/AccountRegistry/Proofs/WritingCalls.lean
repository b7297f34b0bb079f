import AccountRegistry.Proofs.GenesisWrites
import AccountRegistry.Proofs.GuardedCalls

/-!
# Calls that write

What one call writes to the configuration, said once for each kind of call.

* `Registry.begin_privileged`: a privileged call of the owner is refused, or makes the one write
  that it asks for.
* `Registry.begin_unauthorized`: a privileged call of anybody else is refused.
* `Registry.begin_attempt`: a call that runs genesis is an attempt at it.
* `Registry.begin_keeps_slots`: every other call leaves the slots alone.
-/

namespace AccountRegistry

open Procedure

/-! ## Privileged calls -/

/-- Who makes a privileged call. -/
def Call.caller? : Call → Option Int
  | .setClassReference caller _ _ => some caller
  | .setNativeToken caller _ => some caller
  | .setContext caller _ _ => some caller
  | .transferOwnership caller _ => some caller
  | _ => none

/-- The write that a privileged call asks for, unless it names a kind that does not exist. -/
def Call.write? : Call → Option Write
  | .setClassReference _ label reference =>
      (ClassKind.ofLabel? label).map fun kind => .reference kind reference
  | .setNativeToken _ address => some (.nativeToken address)
  | .setContext _ beneficiary fee => some (.context beneficiary fee)
  | .transferOwnership _ newOwner => some (.owner newOwner)
  | _ => none

theorem Call.write?_of_caller? {call : Call} (hcaller : call.caller? = none) :
    call.write? = none := by
  cases call <;> first | rfl | cases hcaller

theorem ClassKind.label_of_ofLabel? {label : String} {kind : ClassKind}
    (hkind : ofLabel? label = some kind) : kind.label = label := by
  simpa using List.find?_some hkind

namespace Registry

variable {wiring : Wiring} {state : State} {call : Call}

/-- What a procedure comes to as a call, and with its result dropped. -/
theorem finishing_performs {α : Type} (procedure : Procedure State α) (answer : α → Answer)
    (state : State) :
    let ending := finishing procedure answer state
    let dropped := (procedure >>= fun _ => pure () : Procedure State Unit) state
    ending.state = dropped.state ∧
      ((dropped.outcome = .ok () ∧ ∃ result, ending.outcome = .ok (.finished result)) ∨
        ∃ stop, dropped.outcome = .error stop ∧ ending.outcome = .error stop) := by
  intro ending dropped
  refine ⟨?_, ?_⟩
  · rw [finishing_state]
    exact (state_bind_of_keeps (fun _ => Keeps.pure _) state).symm
  · cases hended : (procedure state).outcome with
    | ok value =>
        refine .inl ⟨?_, answer value, finishing_ok hended answer⟩
        simp only [dropped, bind_of_ok _ hended]
        rfl
    | error stop =>
        refine .inr ⟨stop, ?_, finishing_error hended answer⟩
        simp only [dropped, bind_of_error _ hended]

/-- A privileged call makes the write that it asks for. -/
theorem begin_performs (wiring : Wiring) (state : State) {caller : Int} {write : Write}
    (hcaller : call.caller? = some caller)
    (hwrite : call.write? = some write) :
    let ending := begin wiring call state
    let performed := write.perform caller state
    ending.state = performed.state ∧
      ((performed.outcome = .ok () ∧ ∃ result, ending.outcome = .ok (.finished result)) ∨
        ∃ stop, performed.outcome = .error stop ∧ ending.outcome = .error stop) := by
  cases call with
  | setClassReference given label reference =>
      cases hcaller
      obtain ⟨kind, hkind, rfl⟩ := Option.map_eq_some_iff.mp hwrite
      rw [← ClassKind.label_of_ofLabel? hkind]
      exact finishing_performs (Configuration.setClassReference caller kind.label reference) _ state
  | setNativeToken given address =>
      cases hcaller
      cases hwrite
      exact finishing_performs (Configuration.setNativeToken caller address) _ state
  | setContext given coinbase baseFee =>
      cases hcaller
      cases hwrite
      exact finishing_performs (Configuration.setContext caller coinbase baseFee) _ state
  | transferOwnership given newOwner =>
      cases hcaller
      cases hwrite
      exact finishing_performs (Configuration.transferOwnership caller newOwner) _ state
  | _ => cases hcaller

/-- A privileged call of somebody else is refused, whatever it asks for. -/
theorem begin_unauthorized (wiring : Wiring) {caller : Int} (hcaller : call.caller? = some caller)
    (hother : caller ≠ state.owner) : (begin wiring call state).Refused .unauthorized state := by
  cases call with
  | setClassReference | setNativeToken | setContext | transferOwnership =>
      cases hcaller
      exact refused_bind _ (refused_bind _ (Configuration.authorize_refused hother))
  | _ => cases hcaller

/-- What a privileged call of the owner comes to: it is refused for another reason than its caller,
or the write that it asks for is granted and made. -/
theorem begin_privileged (wiring : Wiring) (hvalid : state.Valid)
    (hcaller : call.caller? = some state.owner) :
    let ending := begin wiring call state
    (∃ code ≠ FaultCode.unauthorized, ending.Refused code state) ∨
    ∃ write result, call.write? = some write ∧ write.Granted state.slots ∧
      ending.outcome = .ok (.finished result) ∧
      ending.state = state.withSlots (state.slots.after write) := by
  intro ending
  cases hwrite : call.write? with
  | none =>
      -- only the name of a kind can keep a privileged call from asking for a write
      cases call with
      | setClassReference caller label reference =>
          cases hcaller
          have hunknown : ClassKind.ofLabel? label = none := Option.map_eq_none_iff.mp hwrite
          refine .inl ⟨.invalidClassKind, nofun, refused_bind _ ?_⟩
          simp only [Configuration.setClassReference,
            Configuration.authorize_bind_of_owner _ _ rfl, ClassReferences.kindOf, hunknown,
            ofExcept_error]
          exact refused_bind _ (refused_of_fail rfl state)
      | setNativeToken | setContext | transferOwnership => cases hwrite
      | _ => cases hcaller
  | some write =>
      obtain ⟨hstate, hended⟩ := begin_performs wiring state hcaller hwrite
      rcases write.perform_cases hvalid with
        ⟨hgranted, houtcome, hwritten⟩ | ⟨-, code, hother, ⟨fault, houtcome, hcode⟩, hkept⟩
      · refine .inr ⟨write, ?_⟩
        rcases hended with ⟨-, result, hresult⟩ | ⟨stop, hstop, -⟩
        · exact ⟨result, rfl, hgranted, hresult, hstate.trans hwritten⟩
        · rw [houtcome] at hstop
          cases hstop
      · refine .inl ⟨code, hother, ⟨fault, ?_, hcode⟩, hstate.trans hkept⟩
        rcases hended with ⟨hok, -⟩ | ⟨stop, hstop, hresult⟩
        · rw [houtcome] at hok
          cases hok
        · rw [houtcome] at hstop
          cases hstop
          exact hresult

end Registry

/-! ## The lifecycle of the services -/

namespace Lifecycle

variable {σ ι : Type} {transition : Service σ → Procedure σ Unit} {complaint : String}

theorem runInOrder_append (before later : List (Service σ)) :
    runInOrder transition complaint (before ++ later) =
      runInOrder transition complaint before >>= fun _ =>
        runInOrder transition complaint later := by
  induction before with
  | nil => rfl
  | cons service rest ih =>
      show ((transition service).attempt >>= fun result => _) =
        ((transition service).attempt >>= fun result => _) >>= fun _ => _
      rw [bind_bind]
      congr 1
      funext result
      cases result with
      | ok _ => exact ih
      | error fault => rfl

/-- Services whose transitions only mark the state all make them. -/
theorem runInOrder_marks {service : ι → Service σ} (mark : ι → σ → σ) {ids : List ι}
    (hmarks : ∀ id ∈ ids, transition (service id) = Procedure.modify (mark id)) (state : σ) :
    runInOrder transition complaint (ids.map service) state =
      ⟨.ok (), ids.foldl (fun state id => mark id state) state, []⟩ := by
  induction ids generalizing state with
  | nil => rfl
  | cons id rest ih =>
      obtain ⟨hid, hrest⟩ := List.forall_mem_cons.mp hmarks
      have hended : ((transition (service id)).attempt state) =
          ⟨.ok (.ok ()), mark id state, []⟩ := by
        rw [hid]
        rfl
      show (((transition (service id)).attempt >>= fun result => _) : Procedure σ Unit) state = _
      rw [bind_of_ok _ (by rw [hended]), hended]
      dsimp only
      rw [ih hrest]
      rfl

/-- A single service passes on what its transition came to. -/
theorem runInOrder_singleton (transition : Service σ → Procedure σ Unit) (complaint : String)
    (service : Service σ) (state : σ) :
    (runInOrder transition complaint [service] state).state = (transition service state).state ∧
      (runInOrder transition complaint [service] state).outcome =
        (transition service state).outcome := by
  rw [runInOrder, state_bind, outcome_bind, state_attempt]
  unfold attempt
  dsimp only
  cases (transition service state).outcome with
  | ok _ => exact ⟨rfl, rfl⟩
  | error stop =>
      cases stop with
      | failed fault => exact ⟨rfl, rfl⟩
      | escaped fault => exact ⟨rfl, rfl⟩

end Lifecycle

/-- A wiring with the services that a registry registers, with or without genesis. -/
def Wiring.Rostered (wiring : Wiring) : Prop :=
  ∃ withGenesis, wiring.services = Wiring.registered withGenesis

theorem Wiring.create_rostered {hash : Hash} {setup : Setup} {wiring : Wiring}
    (hcreated : Wiring.create hash setup = .ok wiring) : wiring.Rostered := by
  unfold Wiring.create at hcreated
  split at hcreated
  · cases hcreated
    exact ⟨setup.withGenesis, rfl⟩
  · cases hcreated

theorem Launched.create_rostered {hash : Hash} {setup : Setup} {launched : Launched}
    (hcreated : Launched.create hash setup = .ok launched) : launched.wiring.Rostered :=
  Wiring.create_rostered (Launched.create_eq_ok hcreated).1

/-- The state with several services marked as initialized. -/
def State.markAllInitialized (state : State) (services : List ServiceId) : State :=
  services.foldl State.markInitialized state

namespace State

theorem slots_markAllInitialized (state : State) (services : List ServiceId) :
    (state.markAllInitialized services).slots = state.slots := by
  induction services generalizing state with
  | nil => rfl
  | cons service rest ih => exact ih _

theorem genesisDone_markAllInitialized (state : State) {services : List ServiceId}
    (hgenesis : .genesis ∉ services) :
    (state.markAllInitialized services).genesisDone = state.genesisDone := by
  induction services generalizing state with
  | nil => rfl
  | cons service rest ih =>
      rw [List.mem_cons, not_or] at hgenesis
      obtain ⟨hservice, hrest⟩ := hgenesis
      show ((state.markInitialized service).markAllInitialized rest).genesisDone = _
      rw [ih _ hrest, genesisDone_markInitialized]
      simp [Ne.symm hservice]

theorem Valid.markAllInitialized {state : State} (hvalid : state.Valid)
    (services : List ServiceId) : (state.markAllInitialized services).Valid := by
  induction services generalizing state with
  | nil => exact hvalid
  | cons service rest ih =>
      have hmarked : (state.markInitialized service).Valid := { hvalid with }
      exact ih hmarked

end State

theorem Wiring.init_standing (wiring : Wiring) (complaint : String) (state : State) :
    Lifecycle.runInOrder Lifecycle.Service.init complaint
        (ServiceId.standing.map wiring.service) state =
      ⟨.ok (), state.markAllInitialized ServiceId.standing, []⟩ := by
  refine Lifecycle.runInOrder_marks (fun id state => state.markInitialized id)
    (fun id hid => ?_) state
  have hother : id ≠ .genesis := by
    rintro rfl
    exact absurd hid (by decide)
  exact if_neg hother

/-! ## Calls that run genesis -/

/-- Whether a call makes the genesis service attempt genesis. -/
def Call.runsGenesis (wiring : Wiring) : Call → Bool
  | .initGenesis => true
  | .initAll => wiring.services.contains .genesis
  | _ => false

theorem Wiring.Rostered.of_contains {wiring : Wiring} (hrostered : wiring.Rostered)
    (hgenesis : wiring.services.contains .genesis = true) :
    wiring.services = ServiceId.standing ++ [.genesis] := by
  obtain ⟨withGenesis, hservices⟩ := hrostered
  cases withGenesis with
  | true => exact hservices
  | false =>
      rw [hservices] at hgenesis
      exact absurd hgenesis (by decide)

namespace Registry

variable {wiring : Wiring} {state : State} {call : Call}

/-- Where genesis is the last service, the init of all services comes to its init. -/
theorem initAll_eq (hservices : wiring.services = ServiceId.standing ++ [.genesis])
    (state : State) :
    let marked := state.markAllInitialized ServiceId.standing
    (Lifecycle.initAll wiring.roster state).state = (Genesis.init wiring.spec marked).state ∧
      (Lifecycle.initAll wiring.roster state).outcome =
        (Genesis.init wiring.spec marked).outcome := by
  intro marked
  have hstanding := wiring.init_standing "Error initializing service" state
  obtain ⟨hstate, houtcome⟩ := Lifecycle.runInOrder_singleton Lifecycle.Service.init
    "Error initializing service" (wiring.service .genesis) marked
  have hgenesis : (wiring.service .genesis).init = Genesis.init wiring.spec := by
    simp only [Wiring.service, if_true]
  rw [Lifecycle.initAll, Wiring.roster, hservices, List.map_append, List.map_singleton,
    Lifecycle.runInOrder_append, bind_of_ok _ (by rw [hstanding]), hstanding, ← hgenesis]
  dsimp only
  exact ⟨hstate, houtcome⟩

theorem initAll_attempt (hrostered : wiring.Rostered) (hvalid : state.Valid)
    (hgenesis : wiring.services.contains .genesis = true) :
    Genesis.Attempt wiring.spec state () (Lifecycle.initAll wiring.roster state) := by
  obtain ⟨hstate, houtcome⟩ := initAll_eq (hrostered.of_contains hgenesis) state
  have hattempt := Genesis.init_attempt (hvalid.markAllInitialized ServiceId.standing) wiring.spec
  exact hattempt.within (state.slots_markAllInitialized _)
    (state.genesisDone_markAllInitialized (by decide)) hstate (fun hok => houtcome.trans hok)
    fun _ herror => houtcome.trans herror

theorem finishing_attempt {spec : Spec} {procedure : Procedure State Unit}
    (hattempt : Genesis.Attempt spec state () (procedure state)) (answer : Answer) :
    Genesis.Attempt spec state (.finished answer) (finishing procedure (fun _ => answer) state) :=
  hattempt.within rfl rfl (finishing_state _ _ state) (fun hok => finishing_ok hok _)
    fun _ herror => finishing_error herror _

/-- A call that runs genesis is an attempt at it. -/
theorem begin_attempt (hrostered : wiring.Rostered) (hvalid : state.Valid)
    (hruns : call.runsGenesis wiring = true) :
    Genesis.Attempt wiring.spec state (.finished (.flag true)) (begin wiring call state) := by
  cases call with
  | initGenesis => exact finishing_attempt (Genesis.init_attempt hvalid wiring.spec) _
  | initAll => exact finishing_attempt (initAll_attempt hrostered hvalid hruns) _
  | _ => cases hruns

/-! ## All other calls -/

section Others

variable {β : Type} (view : State → β)
  (htable : ∀ (state : State) (table : AddressTable),
    view { state with table := table } = view state)
  (hcode : ∀ (state : State) (code : List (Int × String)),
    view { state with code := code } = view state)
  (hrunning : ∀ (state : State) (running : List ServiceId),
    view { state with running := running } = view state)
  (hmarked : ∀ (state : State) (service : ServiceId), service ≠ .genesis →
    view (state.markInitialized service) = view state)

include htable in
theorem resume_keeps (hstandard : wiring.Standard) (plan : DeploymentPlan) (reply : HostReply) :
    Keeps view (resume wiring call plan reply) := by
  intro state
  rcases resume_state hstandard call plan reply state with hkept | ⟨-, -, -, hwritten⟩
  · rw [hkept]
  · rw [hwritten]
    exact htable _ _

include htable hcode hrunning hmarked in
/-- A call that neither is privileged nor runs genesis changes the address table, the code of an
address or the marks of the services at most. -/
theorem begin_keeps_administered (hstandard : wiring.Standard) (hcaller : call.caller? = none)
    (hruns : call.runsGenesis wiring = false) : Keeps view (begin wiring call) := by
  intro state
  cases call with
  | resolve evm | provisionEoa evm | provisionContract evm code =>
      exact congrArg view (begin_provisions_state rfl)
  | register caller evm account =>
      rw [begin_register_state hstandard]
      rcases Addresses.register_state wiring.hash wiring.identity.deployer caller evm account state
        with hkept | ⟨_, -, -, -, hwritten⟩
      · rw [hkept]
      · rw [hwritten]
        exact htable _ _
  | compute evm =>
      show view (finishing _ _ state).state = _
      rw [finishing_state, Addresses.compute_state]
  | initAll =>
      refine finishing_keeps (Lifecycle.runInOrder_keeps fun service hservice => ?_) _ state
      obtain ⟨id, hid, rfl⟩ := List.mem_map.mp hservice
      have hother : id ≠ .genesis := by
        rintro rfl
        exact absurd (List.contains_iff_mem.mpr hid) (Bool.eq_false_iff.mp hruns)
      rw [Wiring.service, if_neg hother]
      exact Keeps.modify fun state => hmarked state id hother
  | startAll =>
      refine finishing_keeps (Lifecycle.runInOrder_keeps fun service hservice => ?_) _ state
      obtain ⟨id, -, rfl⟩ := List.mem_map.mp hservice
      exact Keeps.modify fun state => hrunning state _
  | stopAll =>
      refine finishing_keeps (Lifecycle.stopAll_keeps fun service hservice => ?_) _ state
      obtain ⟨id, -, rfl⟩ := List.mem_map.mp hservice
      exact Keeps.modify fun state => hrunning state _
  | setCode evm code =>
      exact finishing_keeps (Keeps.modify fun state => hcode state ((evm, code) :: state.code)) _
        state
  | derive | plan => exact Keeps.get.bind (fun _ => finishing_keeps (Keeps.ofStop _) _) state
  | classReference | versionedReference | nativeToken | context | coinbase | baseFee =>
      exact reading_keeps _ _ state
  | setClassReference | setNativeToken | setContext | transferOwnership => cases hcaller
  | initGenesis => cases hruns
  | deployIfAbsent | lookup | mapping | evmOf | owner | isAuthorized | code | identity | spec |
      serviceStatus | statuses | allRunning => rfl

end Others

/-- The slots and the mark of genesis are kept by a call that neither is privileged nor runs
genesis. -/
theorem begin_keeps_slots (hstandard : wiring.Standard) (hcaller : call.caller? = none)
    (hruns : call.runsGenesis wiring = false) (state : State) :
    (begin wiring call state).state.slots = state.slots ∧
      (begin wiring call state).state.genesisDone = state.genesisDone := by
  constructor
  · exact begin_keeps_administered State.slots (fun _ _ => rfl) (fun _ _ => rfl)
      (fun _ _ => rfl) (fun _ _ _ => rfl) hstandard hcaller hruns state
  · refine begin_keeps_administered State.genesisDone (fun _ _ => rfl) (fun _ _ => rfl)
      (fun _ _ => rfl) (fun state service hother => ?_) hstandard hcaller hruns state
    rw [State.genesisDone_markInitialized]
    simp [hother]

end Registry

end AccountRegistry
