import AccountRegistry.Proofs.WritingRuns

/-!
# Only the owner has influence

Who the owner is changes along a run, and whether a privileged call is heard depends on the owner of
that moment alone.

* `Machine.step_of_trespass`: a privileged call of somebody else changes nothing.
* `Machine.changes_of_administers`: the slots change only where the owner of the moment makes a
  write or genesis is attempted.
* `unauthorized_calls_have_no_influence`: so the privileged calls of others can be deleted from a
  run, and nothing that remains is any different.
-/

namespace AccountRegistry

/-- A privileged call of somebody other than the owner. -/
def Call.trespasses (owner : Int) (call : Call) : Bool :=
  call.caller?.any fun caller => caller ≠ owner

theorem Call.trespasses_eq_true {owner : Int} {call : Call} :
    call.trespasses owner = true ↔ ∃ caller, call.caller? = some caller ∧ caller ≠ owner := by
  simp [trespasses, Option.any_eq_true]

theorem Call.trespasses_informed (owner : Int) (view : Int → Option DeployedAccount)
    (call : Call) : (call.informed view).trespasses owner = call.trespasses owner := by
  cases call <;> rfl

/-! ## Over any ledger -/

namespace Machine

variable {wiring : Wiring} {machine : Machine}

/-- At this moment somebody other than the owner makes a privileged call. -/
def trespasses (moment : Moment Machine Event) : Bool :=
  match moment.event with
  | .call call => call.trespasses moment.before.state.owner
  | .reply _ => false

/-- A privileged call of somebody else changes nothing. -/
theorem step_of_trespass {call : Call}
    (htrespasses : call.trespasses machine.state.owner = true) :
    (machine.step wiring (.call call)).machine = machine := by
  obtain ⟨caller, hcaller, hother⟩ := Call.trespasses_eq_true.mp htrespasses
  obtain ⟨⟨fault, hended, -⟩, hkept⟩ :=
    Registry.begin_unauthorized wiring hcaller hother
  rw [(step_of_stopped hended).1, hkept]

/-- A privileged call is refused as unauthorized exactly if its caller is not the owner. -/
theorem unauthorized_iff {event : Event} (hadministers : Administers wiring machine event)
    {call : Call} {caller : Int} (hevent : event = .call call)
    (hcaller : call.caller? = some caller) :
    (machine.step wiring event).effect.stop?.bind Stop.code? = some .unauthorized ↔
      caller ≠ machine.state.owner := by
  cases hadministers with
  | refused called someone stop hcalled hsomeone hcode heffect =>
      cases hevent.symm.trans hcalled
      cases hcaller.symm.trans hsomeone
      rw [heffect]
      exact hcode
  | granted called write result hcalled howner hwrite hgranted heffect =>
      cases hevent.symm.trans hcalled
      cases hcaller.symm.trans howner
      rw [heffect]
      exact ⟨nofun, fun hother => absurd rfl hother⟩
  | attempted called hcalled hruns =>
      cases hevent.symm.trans hcalled
      rw [Call.runsGenesis_of_caller? wiring hcaller] at hruns
      cases hruns
  | other hcall =>
      rw [(hcall call hevent).1] at hcaller
      cases hcaller

/-- The slots change only where the owner makes a write, or where genesis is attempted that was not
done. -/
theorem changes_of_administers {event : Event} (hadministers : Administers wiring machine event) :
    let step := machine.step wiring event
    step.machine.state.slots = machine.state.slots ∨
    (∃ call write result, event = .call call ∧ call.caller? = some machine.state.owner ∧
      call.write? = some write ∧ step.effect = .ended call (.ok result) ∧
      step.machine.state.slots = machine.state.slots.after write) ∨
    ∃ call, event = .call call ∧ call.runsGenesis wiring = true ∧
      machine.state.genesisDone = false := by
  cases hadministers with
  | refused call caller stop hevent hcaller hcode heffect hkept => exact .inl (by rw [hkept])
  | granted call write result hevent hcaller hwrite hgranted heffect hwritten =>
      refine .inr (.inl ⟨call, write, result, hevent, hcaller, hwrite, heffect, ?_⟩)
      rw [hwritten]
      rfl
  | other hcall hslots hdone => exact .inl hslots
  | attempted call hevent hruns hstate hattempt =>
      cases hattempt with
      | skipped hdone hafter houtcome hslots => exact .inl (by rw [hstate, hslots])
      | applied hopen => exact .inr (.inr ⟨call, hevent, hruns, hopen⟩)
      | failed hopen => exact .inr (.inr ⟨call, hevent, hruns, hopen⟩)

/-- Without the privileged calls of others a run ends where it did, and every other event has the
effect that it had. -/
theorem run_without_trespasses (wiring : Wiring) (start : Machine) (events : List Event) :
    let kept := (start.moments wiring events).filter fun moment => !trespasses moment
    let remaining := kept.map Moment.event
    start.run wiring remaining = start.run wiring events ∧
      start.effects wiring remaining =
        kept.map fun moment => (moment.before.step wiring moment.event).effect := by
  intro kept remaining
  have hidle (before : Machine) (event : Event) (hdropped : trespasses ⟨before, event⟩ = true) :
      (before.step wiring event).machine = before := by
    cases event with
    | call call => exact step_of_trespass hdropped
    | reply reply => cases hdropped
  obtain ⟨hmoments, hend⟩ := momentsFrom_filter _ trespasses hidle start events
  have hsame : start.moments wiring remaining = kept := hmoments
  refine ⟨?_, ?_⟩
  · rw [run_eq_foldl, run_eq_foldl]
    exact hend
  · rw [effects_eq, hsame]

end Machine

/-! ## Over the ledger in memory -/

namespace System

/-- At this moment somebody other than the owner makes a privileged call. -/
def trespasses (moment : Moment System Event) : Bool :=
  match moment.event with
  | .call call => call.trespasses moment.before.machine.state.owner
  | _ => false

/-- Without the privileged calls of others a run ends where it did, ledger included, and every other
event is answered as it was. -/
theorem run_without_trespasses (wiring : Wiring) (start : System) (events : List Event) :
    let kept := (start.moments wiring events).filter fun moment => !trespasses moment
    let remaining := kept.map Moment.event
    start.run wiring remaining = start.run wiring events ∧
      start.answers wiring remaining = kept.map fun moment =>
        let step := moment.before.step wiring moment.event
        (step.effect, step.reply, step.log) := by
  intro kept remaining
  have hidle (before : System) (event : Event) (hdropped : trespasses ⟨before, event⟩ = true) :
      (before.step wiring event).system = before := by
    cases event with
    | call call =>
        have htrespasses : (call.informed before.ledger.find?).trespasses
            before.machine.state.owner = true := by
          rw [Call.trespasses_informed]
          exact hdropped
        rw [step_call, Machine.step_of_trespass htrespasses]
    | deploy | reply | request | reject => cases hdropped
  obtain ⟨hmoments, hend⟩ := momentsFrom_filter _ trespasses hidle start events
  have hsame : start.moments wiring remaining = kept := hmoments
  refine ⟨?_, ?_⟩
  · rw [run_eq_foldl, run_eq_foldl]
    exact hend
  · rw [answers_eq, hsame]

end System

/-! ## Every run -/

/-- In every run of a created registry a privileged call is refused as unauthorized exactly if its
caller is not the owner at that moment; the owner, the class references, the native token and the
block context change only in a privileged call of the owner of the moment that succeeds, or in
genesis.  The privileged calls of others can be deleted from the run: it ends in the same state, and
every remaining event has the result that it had. -/
theorem unauthorized_calls_have_no_influence {hash : Hash} {setup : Setup} {launched : Launched}
    (hcreated : Launched.create hash setup = .ok launched) :
    let wiring := launched.wiring
    (∀ (events : List Event), ∀ moment ∈ (Machine.idle launched.state).moments wiring events,
      let machine := moment.before
      let step := machine.step wiring moment.event
      (∀ call caller, moment.event = .call call → call.caller? = some caller →
        (step.effect.stop?.bind Stop.code? = some .unauthorized ↔
          caller ≠ machine.state.owner)) ∧
      (step.machine.state.slots = machine.state.slots ∨
        (∃ call write result, moment.event = .call call ∧
          call.caller? = some machine.state.owner ∧ call.write? = some write ∧
          step.effect = .ended call (.ok result) ∧
          step.machine.state.slots = machine.state.slots.after write) ∨
        ∃ call, moment.event = .call call ∧ call.runsGenesis wiring = true ∧
          machine.state.genesisDone = false)) ∧
    (∀ (events : List Event),
      let start := Machine.idle launched.state
      let kept := (start.moments wiring events).filter fun moment => !Machine.trespasses moment
      let remaining := kept.map Moment.event
      start.run wiring remaining = start.run wiring events ∧
        start.effects wiring remaining =
          kept.map fun moment => (moment.before.step wiring moment.event).effect) ∧
    (∀ (ledger : Ledger) (events : List System.Event),
      let start := System.idle launched.state ledger
      let kept := (start.moments wiring events).filter fun moment => !System.trespasses moment
      let remaining := kept.map Moment.event
      start.run wiring remaining = start.run wiring events ∧
        start.answers wiring remaining = kept.map fun moment =>
          let step := moment.before.step wiring moment.event
          (step.effect, step.reply, step.log)) := by
  intro wiring
  refine ⟨?_, ?_, ?_⟩
  · intro events moment hmem machine step
    obtain ⟨part, hpart⟩ := Machine.before_of_mem_moments wiring hmem
    have hvalid : machine.state.Valid := by
      rw [show machine = _ from hpart]
      exact (Machine.Valid.reached hcreated part).state
    have hadministers := Machine.step_administers (Launched.create_standard hcreated)
      (Launched.create_rostered hcreated) hvalid moment.event
    exact ⟨fun call caller hevent hcaller => Machine.unauthorized_iff hadministers hevent hcaller,
      Machine.changes_of_administers hadministers⟩
  · intro events
    exact Machine.run_without_trespasses wiring _ events
  · intro ledger events
    exact System.run_without_trespasses wiring _ events

/-- The owner hands over; what the new owner asked for before, and the old one after, is as if
nobody had asked. -/
theorem unauthorized_calls_have_no_influence_across_handover :
    let wiring := (Launched.small .toSalt).wiring
    let start := Machine.idle (Launched.small .toSalt).state
    let heard : List Event :=
      [.call (.transferOwnership 2 5), .call (.setClassReference 5 "proxy" 9)]
    let events : List Event :=
      .call (.setClassReference 5 "proxy" 8) :: heard ++ [.call (.setNativeToken 2 7)]
    start.run wiring events = start.run wiring heard ∧
      (start.run wiring heard).state.slots =
        ⟨5, ⟨none, none, none, some ⟨9, 1⟩⟩, none, none⟩ := by
  intro wiring start heard events
  obtain ⟨hrun, -⟩ :=
    (unauthorized_calls_have_no_influence (Launched.create_small .toSalt)).2.1 events
  have hremaining : (((start.moments wiring events).filter fun moment =>
      !Machine.trespasses moment).map Moment.event) = heard := rfl
  rw [← hremaining]
  exact ⟨hrun.symm, by decide +kernel⟩

end AccountRegistry
