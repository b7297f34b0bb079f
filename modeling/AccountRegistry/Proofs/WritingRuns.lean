import AccountRegistry.Proofs.Moments
import AccountRegistry.Proofs.WritingCalls

/-!
# The writes of a run

An event does one of four things to the configuration (`Machine.Administers`): a privileged call is
refused, or makes the write that it asks for; a call attempts genesis; anything else leaves all
slots alone.

* `Machine.step_writes`: the slots after an event are those before it with the writes of the event,
  each of which was granted.
* `Machine.run_writes`: the slots after a run are those before it with the writes of its history.
-/

namespace AccountRegistry

theorem Call.runsGenesis_of_caller? {call : Call} {caller : Int} (wiring : Wiring)
    (hcaller : call.caller? = some caller) : call.runsGenesis wiring = false := by
  cases call <;> first | rfl | cases hcaller

theorem Call.write?_of_runsGenesis {wiring : Wiring} {call : Call}
    (hruns : call.runsGenesis wiring = true) : call.write? = none := by
  cases call with
  | initGenesis | initAll => rfl
  | _ => cases hruns

namespace Machine

variable {wiring : Wiring} {machine : Machine} {event : Event}

/-! ## One event -/

/-- What an event does to the configuration.

* `refused`: a privileged call is refused, as unauthorized exactly if the caller is not the owner.
* `granted`: a privileged call of the owner makes the write that it asks for.
* `attempted`: a call attempts genesis.
* `other`: neither of these, and nothing is written. -/
inductive Administers (wiring : Wiring) (machine : Machine) (event : Event) : Prop
  | refused (call : Call) (caller : Int) (stop : Stop)
      (hevent : event = .call call)
      (hcaller : call.caller? = some caller)
      (hcode : stop.code? = some .unauthorized ↔ caller ≠ machine.state.owner)
      (heffect : (machine.step wiring event).effect = .ended call (.error stop))
      (hkept : (machine.step wiring event).machine = machine)
  | granted (call : Call) (write : Write) (result : Answer)
      (hevent : event = .call call)
      (hcaller : call.caller? = some machine.state.owner)
      (hwrite : call.write? = some write)
      (hgranted : write.Granted machine.state.slots)
      (heffect : (machine.step wiring event).effect = .ended call (.ok result))
      (hwritten : (machine.step wiring event).machine =
        ⟨machine.state.withSlots (machine.state.slots.after write), machine.waiting⟩)
  | attempted (call : Call)
      (hevent : event = .call call)
      (hruns : call.runsGenesis wiring = true)
      (hstate : (machine.step wiring event).machine.state =
        (Registry.begin wiring call machine.state).state)
      (hattempt : Genesis.Attempt wiring.spec machine.state (.finished (.flag true))
        (Registry.begin wiring call machine.state))
  | other
      (hcall : ∀ call, event = .call call → call.caller? = none ∧ call.runsGenesis wiring = false)
      (hslots : (machine.step wiring event).machine.state.slots = machine.state.slots)
      (hdone : (machine.step wiring event).machine.state.genesisDone = machine.state.genesisDone)

theorem step_administers (hstandard : wiring.Standard) (hrostered : wiring.Rostered)
    (hvalid : machine.state.Valid) (event : Event) : Administers wiring machine event := by
  cases event with
  | reply reply =>
      cases hwaiting : machine.waiting with
      | nil =>
          have hstep : machine.step wiring (.reply reply) = _ := step_reply_nil reply hwaiting
          exact .other nofun (by rw [hstep]) (by rw [hstep])
      | cons waiting rest =>
          have hstep : machine.step wiring (.reply reply) = _ := step_reply_cons reply hwaiting
          refine .other nofun ?_ ?_
          · rw [hstep]
            exact Registry.resume_keeps State.slots (fun _ _ => rfl) hstandard _ _ _
          · rw [hstep]
            exact Registry.resume_keeps State.genesisDone (fun _ _ => rfl) hstandard _ _ _
  | call call =>
      cases hcaller : call.caller? with
      | some caller =>
          by_cases howner : caller = machine.state.owner
          · rw [howner] at hcaller
            rcases Registry.begin_privileged wiring hvalid hcaller with
              ⟨code, hother, ⟨fault, hended, hcode⟩, hkept⟩ |
              ⟨write, result, hwrite, hgranted, hended, hwritten⟩
            · obtain ⟨hmachine, heffect⟩ := step_of_stopped hended
              refine .refused call _ (.failed fault) rfl hcaller ?_ heffect ?_
              · have hreason : (Stop.failed fault).code? = some code := hcode
                rw [hreason, Option.some.injEq]
                exact ⟨fun hsame => absurd hsame hother, fun hsame => absurd rfl hsame⟩
              · rw [hmachine, hkept]
            · obtain ⟨hmachine, heffect⟩ := step_of_finished hended
              refine .granted call write result rfl hcaller hwrite hgranted heffect ?_
              rw [hmachine, hwritten]
          · obtain ⟨⟨fault, hended, hcode⟩, hkept⟩ :=
              Registry.begin_unauthorized wiring hcaller howner
            obtain ⟨hmachine, heffect⟩ := step_of_stopped hended
            refine .refused call caller (.failed fault) rfl hcaller ?_ heffect ?_
            · exact ⟨fun _ => howner, fun _ => hcode⟩
            · rw [hmachine, hkept]
      | none =>
          cases hruns : call.runsGenesis wiring with
          | true =>
              exact .attempted call rfl hruns (step_call_state wiring machine call)
                (Registry.begin_attempt hrostered hvalid hruns)
          | false =>
              obtain ⟨hslots, hdone⟩ :=
                Registry.begin_keeps_slots hstandard hcaller hruns machine.state
              refine .other ?_ ?_ ?_
              · rintro called hcalled
                cases hcalled
                exact ⟨hcaller, hruns⟩
              · rw [step_call_state, hslots]
              · rw [step_call_state, hdone]

/-! ## The writes of an event -/

/-- The writes that an event makes in an attempt at genesis. -/
def genesisWrites (wiring : Wiring) (machine : Machine) : Event → List Write
  | .call call =>
      if call.runsGenesis wiring then Genesis.writes wiring.spec machine.state else []
  | .reply _ => []

/-- The write that an event makes as a privileged call that succeeds. -/
def ownerWrites (wiring : Wiring) (machine : Machine) (event : Event) : List Write :=
  match event, (machine.step wiring event).effect with
  | .call call, .ended _ (.ok _) => call.write?.toList
  | _, _ => []

/-- The writes that an event makes. -/
def writes (wiring : Wiring) (machine : Machine) (event : Event) : List Write :=
  machine.genesisWrites wiring event ++ machine.ownerWrites wiring event

theorem genesisWrites_of_runsGenesis {call : Call} (hruns : call.runsGenesis wiring = true) :
    machine.genesisWrites wiring (.call call) = Genesis.writes wiring.spec machine.state :=
  if_pos hruns

theorem genesisWrites_of_not {call : Call} (hruns : call.runsGenesis wiring = false) :
    machine.genesisWrites wiring (.call call) = [] :=
  if_neg (Bool.eq_false_iff.mp hruns)

theorem ownerWrites_of_ok {call : Call} {result : Answer}
    (heffect : (machine.step wiring (.call call)).effect = .ended call (.ok result)) :
    machine.ownerWrites wiring (.call call) = call.write?.toList := by
  simp only [ownerWrites, heffect]

theorem ownerWrites_of_error {call : Call} {stop : Stop}
    (heffect : (machine.step wiring (.call call)).effect = .ended call (.error stop)) :
    machine.ownerWrites wiring (.call call) = [] := by
  simp only [ownerWrites, heffect]

theorem ownerWrites_of_write?_none {call : Call} (hwrite : call.write? = none) :
    machine.ownerWrites wiring (.call call) = [] := by
  unfold ownerWrites
  split
  · rename_i called _ _ _ hcalled _
    cases hcalled
    rw [hwrite]
    rfl
  · rfl

theorem writes_of_granted {call : Call} {write : Write} {caller : Int} {result : Answer}
    (hcaller : call.caller? = some caller) (hwrite : call.write? = some write)
    (heffect : (machine.step wiring (.call call)).effect = .ended call (.ok result)) :
    machine.writes wiring (.call call) = [write] := by
  rw [writes, genesisWrites_of_not (Call.runsGenesis_of_caller? wiring hcaller),
    ownerWrites_of_ok heffect, hwrite]
  rfl

theorem writes_of_refused {call : Call} {caller : Int} {stop : Stop}
    (hcaller : call.caller? = some caller)
    (heffect : (machine.step wiring (.call call)).effect = .ended call (.error stop)) :
    machine.writes wiring (.call call) = [] := by
  rw [writes, genesisWrites_of_not (Call.runsGenesis_of_caller? wiring hcaller),
    ownerWrites_of_error heffect]
  rfl

theorem writes_of_runsGenesis {call : Call} (hruns : call.runsGenesis wiring = true) :
    machine.writes wiring (.call call) = Genesis.writes wiring.spec machine.state := by
  rw [writes, genesisWrites_of_runsGenesis hruns,
    ownerWrites_of_write?_none (Call.write?_of_runsGenesis hruns), List.append_nil]

theorem writes_of_other
    (hcall : ∀ call, event = .call call → call.caller? = none ∧ call.runsGenesis wiring = false) :
    machine.writes wiring event = [] := by
  cases event with
  | reply reply => rfl
  | call call =>
      obtain ⟨hcaller, hruns⟩ := hcall call rfl
      rw [writes, genesisWrites_of_not hruns,
        ownerWrites_of_write?_none (Call.write?_of_caller? hcaller)]
      rfl

/-- The slots after an event are those before it with the writes of the event, each of which was
granted. -/
theorem step_writes (hstandard : wiring.Standard) (hrostered : wiring.Rostered)
    (hvalid : machine.state.Valid) (event : Event) :
    (machine.step wiring event).machine.state.slots =
        machine.state.slots.afterAll (machine.writes wiring event) ∧
      machine.state.slots.Admits (machine.writes wiring event) := by
  cases step_administers hstandard hrostered hvalid event with
  | refused call caller stop hevent hcaller hcode heffect hkept =>
      rw [hevent] at heffect hkept ⊢
      rw [writes_of_refused hcaller heffect, hkept]
      exact ⟨rfl, Slots.admits_nil _⟩
  | granted call write result hevent hcaller hwrite hgranted heffect hwritten =>
      rw [hevent] at heffect hwritten ⊢
      rw [writes_of_granted hcaller hwrite heffect, hwritten]
      exact ⟨rfl, Slots.admits_cons.mpr ⟨hgranted, Slots.admits_nil _⟩⟩
  | attempted call hevent hruns hstate hattempt =>
      rw [hevent] at hstate ⊢
      rw [writes_of_runsGenesis hruns, hstate]
      cases hattempt with
      | skipped hdone hafter houtcome hslots =>
          rw [Genesis.writes_of_done _ hdone]
          exact ⟨hslots, Slots.admits_nil _⟩
      | applied hopen hafter hgranted houtcome hslots =>
          rw [Genesis.writes_of_open hvalid _ hopen, hgranted]
          exact ⟨hslots, hgranted⟩
      | failed hopen hafter hrefused fault houtcome hslots =>
          rw [Genesis.writes_of_open hvalid _ hopen]
          exact ⟨hslots, Slots.admits_granted _ _⟩
  | other hcall hslots hdone =>
      rw [writes_of_other hcall, hslots]
      exact ⟨rfl, Slots.admits_nil _⟩

/-! ## Runs -/

/-- The writes that the events of a run make, in their order. -/
def history (wiring : Wiring) (machine : Machine) (events : List Event) : List Write :=
  (machine.moments wiring events).flatMap fun moment => moment.before.writes wiring moment.event

theorem history_cons (wiring : Wiring) (machine : Machine) (event : Event) (rest : List Event) :
    machine.history wiring (event :: rest) =
      machine.writes wiring event ++ (machine.step wiring event).machine.history wiring rest :=
  List.flatMap_cons

/-- The slots after a run are those before it with the writes of its history, each of which was
granted. -/
theorem run_writes (hstandard : wiring.Standard)
    (hdeployer : Address.IsNative wiring.identity.deployer) (hrostered : wiring.Rostered)
    (hvalid : machine.Valid wiring) (events : List Event) :
    (machine.run wiring events).state.slots =
        machine.state.slots.afterAll (machine.history wiring events) ∧
      machine.state.slots.Admits (machine.history wiring events) := by
  induction events generalizing machine with
  | nil => exact ⟨rfl, Slots.admits_nil _⟩
  | cons event rest ih =>
      obtain ⟨hslots, hadmits⟩ := step_writes hstandard hrostered hvalid.state event
      obtain ⟨hrest, hrestAdmits⟩ := ih (hvalid.step hstandard hdeployer event)
      rw [hslots] at hrest hrestAdmits
      rw [run_cons, history_cons, Slots.afterAll_append, Slots.admits_append]
      exact ⟨hrest, hadmits, hrestAdmits⟩

end Machine

/-! ## A furnished registry

Deployed at 1 and owned by 2, with a genesis that sets the proxy to 9 and the native token to 5. -/

/-- The setup of a registry whose spec has a proxy and a native token. -/
def Setup.furnished : Setup where
  spec := ⟨"furnished", 1, 1, 2, some 5, [("proxy", 9)], none⟩
  overrides := ⟨none, none⟩
  code := []
  withGenesis := true

/-- The furnished registry under a hash, before genesis. -/
def Launched.furnished (hash : Hash) : Launched where
  wiring := ⟨hash, ⟨"furnished", 1, 1, 2⟩, Setup.furnished.spec, ServiceId.all, .standard hash 1⟩
  state := .initial 2 []
  log := ServiceId.all.map fun id => Lifecycle.registered id.label

theorem Launched.create_furnished (hash : Hash) :
    Launched.create hash .furnished = .ok (.furnished hash) := rfl

end AccountRegistry
