import AccountRegistry.Proofs.History
import Mathlib.Data.List.TakeWhile

/-!
# Attempts at genesis

Genesis is done when all writes of the spec were made.  Until then every init attempts it from the
first write on, so that an attempt that failed half-way is not undone and not continued but
repeated.

* `Slots.granted_again`: after an attempt that failed, whatever happens in between, another one
  makes the writes that come before the native token once more.
* `Machine.Stuck`, with `Stuck.step`: a registry whose genesis failed once will never have it done.
* `Machine.attempts_cases`: what the attempts of a run write.
* `repeated_genesis_writes_references_alone`: all of it for every run, and beside it the run in
  which an attempt overwrites what the owner has set.
-/

namespace AccountRegistry

/-! ## Lists of writes made again -/

/-- A write of a class reference. -/
def Write.isReference : Write → Bool
  | .reference _ _ => true
  | _ => false

namespace Slots

variable {slots later : Slots} {write : Write} {writes : List Write}

/-- The native token is not free any more where it was not before. -/
def Tighter (slots later : Slots) : Prop :=
  later.nativeToken = none → slots.nativeToken = none

theorem Tighter.refl (slots : Slots) : slots.Tighter slots :=
  id

theorem Tighter.trans {last : Slots} (hfirst : slots.Tighter later) (hsecond : later.Tighter last) :
    slots.Tighter last :=
  fun hfree => hfirst (hsecond hfree)

theorem tighter_after (slots : Slots) (write : Write) : slots.Tighter (slots.after write) := by
  cases write with
  | nativeToken address => exact nofun
  | _ => exact id

theorem tighter_afterAll (slots : Slots) (writes : List Write) :
    slots.Tighter (slots.afterAll writes) := by
  induction writes generalizing slots with
  | nil => exact .refl slots
  | cons write rest ih => exact (slots.tighter_after write).trans (ih _)

theorem granted_of_tighter (htighter : slots.Tighter later) (hgranted : write.Granted later) :
    write.Granted slots := by
  obtain ⟨hfits, hfaultless⟩ := hgranted
  refine ⟨?_, hfaultless⟩
  cases write with
  | nativeToken address => exact htighter hfits
  | _ => trivial

/-- Whether anything but the native token is granted does not depend on the slots. -/
theorem granted_of_slot (hslot : write.slot ≠ .nativeToken) (hgranted : write.Granted slots) :
    write.Granted later := by
  refine ⟨?_, hgranted.2⟩
  cases write with
  | nativeToken address => exact absurd rfl hslot
  | _ => trivial

/-- After a list that was not made to its end, the list is made again up to the native token. -/
theorem granted_again (hstopped : ¬ slots.Admits writes)
    (htighter : (slots.afterAll (slots.granted writes)).Tighter later) :
    later.granted writes =
      (slots.granted writes).takeWhile fun write => write.slot ≠ .nativeToken := by
  induction writes generalizing slots later with
  | nil => exact absurd (admits_nil slots) hstopped
  | cons write rest ih =>
      by_cases hgranted : write.Granted slots
      · rw [granted_cons hgranted] at htighter ⊢
        by_cases hslot : write.slot = .nativeToken
        · -- the token is set, and not granted again
          have hrefused : ¬ write.Granted later := by
            cases write with
            | nativeToken address =>
                intro hagain
                have hset : (slots.after (.nativeToken address)).nativeToken = none :=
                  (tighter_afterAll _ _).trans htighter hagain.1
                cases hset
            | _ => cases hslot
          rw [granted_cons_of_not hrefused, List.takeWhile_cons_of_neg (by simp [hslot])]
        · have hagain : write.Granted later := granted_of_slot hslot hgranted
          rw [granted_cons hagain, List.takeWhile_cons_of_pos (by simp [hslot])]
          congr 1
          refine ih (fun hrest => hstopped (admits_cons.mpr ⟨hgranted, hrest⟩)) ?_
          intro hfree
          rw [nativeToken_after later hslot] at hfree
          exact htighter hfree
      · have hrefused : ¬ write.Granted later := by
          intro hagain
          rw [granted_cons_of_not hgranted] at htighter
          exact hgranted (granted_of_tighter htighter hagain)
        rw [granted_cons_of_not hgranted, granted_cons_of_not hrefused]
        rfl

end Slots

/-! ## The writes of a spec -/

namespace Spec

variable {spec : Spec} {made : List Write}

/-- Where not all writes of a spec are made, these are class references, or all of them with the
native token after them: the block context comes last. -/
theorem prefix_cases (hleading : made <+: spec.writes) (hshort : made ≠ spec.writes) :
    made <+: spec.referenceWrites ∨
      ∃ token, made = spec.referenceWrites ++ [.nativeToken token] := by
  have hbefore : made <+:
      spec.referenceWrites ++ (spec.nativeToken.map Write.nativeToken).toList := by
    unfold writes at hleading hshort
    cases hcontext : spec.chainContext with
    | none => simpa [hcontext] using hleading
    | some context =>
        rw [hcontext] at hleading hshort
        exact (List.prefix_concat_iff.mp hleading).resolve_left hshort
  cases htoken : spec.nativeToken with
  | none => exact .inl (by simpa [htoken] using hbefore)
  | some token =>
      rw [htoken] at hbefore
      rcases List.prefix_concat_iff.mp hbefore with hall | hreferences
      · exact .inr ⟨token, hall⟩
      · exact .inl hreferences

/-- Up to the native token these are the class references. -/
theorem takeWhile_eq_filter (hleading : made <+: spec.writes) (hshort : made ≠ spec.writes) :
    (made.takeWhile fun write => write.slot ≠ .nativeToken) = made.filter Write.isReference := by
  have hreferences (write : Write) (hmem : write ∈ spec.referenceWrites) :
      write.isReference = true ∧ decide (write.slot ≠ .nativeToken) = true := by
    obtain ⟨kind, value, rfl⟩ := mem_referenceWrites hmem
    exact ⟨rfl, rfl⟩
  rcases prefix_cases hleading hshort with hpart | ⟨token, rfl⟩
  · rw [List.takeWhile_eq_self_iff.mpr fun write hmem => (hreferences write (hpart.subset hmem)).2,
      List.filter_eq_self.mpr fun write hmem => (hreferences write (hpart.subset hmem)).1]
  · rw [List.takeWhile_append_of_pos fun write hmem => (hreferences write hmem).2,
      List.filter_append, List.filter_eq_self.mpr fun write hmem => (hreferences write hmem).1]
    rfl

end Spec

/-! ## After an attempt -/

namespace Machine

variable {wiring : Wiring} {machine : Machine} {again : List Write}

/-- Genesis is not done and will not be: an attempt makes certain writes before it comes to one that
is not granted any more, and sets no native token. -/
structure Stuck (wiring : Wiring) (again : List Write) (state : State) : Prop where
  undone : state.genesisDone = false
  granted : state.slots.granted wiring.spec.writes = again
  short : again ≠ wiring.spec.writes
  tokenless : ∀ write ∈ again, write.slot ≠ .nativeToken

theorem Stuck.of_tighter {state later : State} (hstuck : Stuck wiring again state)
    (htighter : state.slots.Tighter later.slots) (hundone : later.genesisDone = false) :
    Stuck wiring again later where
  undone := hundone
  short := hstuck.short
  tokenless := hstuck.tokenless
  granted := by
    have hstopped : ¬ state.slots.Admits wiring.spec.writes := by
      intro hadmits
      exact hstuck.short (hstuck.granted.symm.trans hadmits)
    have htoken : (state.slots.afterAll again).nativeToken = state.slots.nativeToken :=
      Slots.afterAll_agreeAt hstuck.tokenless
    have htight : (state.slots.afterAll (state.slots.granted wiring.spec.writes)).Tighter
        later.slots := by
      intro hfree
      rw [hstuck.granted, htoken]
      exact htighter hfree
    rw [Slots.granted_again hstopped htight, hstuck.granted, List.takeWhile_eq_self_iff]
    intro write hmem
    exact decide_eq_true (hstuck.tokenless write hmem)

/-- A failed attempt is stuck with the class references that it wrote. -/
theorem stuck_of_failed {state after : State} (hundone : after.genesisDone = false)
    (hrefused : state.slots.granted wiring.spec.writes ≠ wiring.spec.writes)
    (hslots : after.slots = state.slots.afterAll (state.slots.granted wiring.spec.writes)) :
    Stuck wiring ((state.slots.granted wiring.spec.writes).filter Write.isReference) after where
  undone := hundone
  granted := by
    rw [hslots, Slots.granted_again hrefused (.refl _)]
    exact Spec.takeWhile_eq_filter (Slots.prefix_granted _ _) hrefused
  short := by
    intro hall
    have hleading := Slots.prefix_granted state.slots wiring.spec.writes
    have hlength : wiring.spec.writes.length ≤
        (state.slots.granted wiring.spec.writes).length := by
      conv => lhs; rw [← hall]
      exact List.length_filter_le _ _
    exact hrefused (hleading.eq_of_length_le hlength)
  tokenless := by
    intro write hmem hslot
    have hreference := (List.mem_filter.mp hmem).2
    cases write with
    | reference kind value => cases hslot
    | _ => cases hreference

theorem Stuck.step (hstandard : wiring.Standard) (hrostered : wiring.Rostered)
    (hvalid : machine.state.Valid) (hstuck : Stuck wiring again machine.state) (event : Event) :
    Stuck wiring again (machine.step wiring event).machine.state := by
  refine hstuck.of_tighter ?_ ?_
  · rw [(step_writes hstandard hrostered hvalid event).1]
    exact Slots.tighter_afterAll _ _
  · cases step_administers hstandard hrostered hvalid event with
    | refused call caller stop hevent hcaller hcode heffect hkept =>
        rw [hkept]
        exact hstuck.undone
    | granted call write result hevent hcaller hwrite hgranted heffect hwritten =>
        rw [hwritten]
        exact hstuck.undone
    | other hcall hslots hdone =>
        rw [hdone]
        exact hstuck.undone
    | attempted call hevent hruns hstate hattempt =>
        rw [hstate]
        cases hattempt with
        | skipped hdone =>
            rw [hstuck.undone] at hdone
            cases hdone
        | applied hopen hafter hgranted =>
            exact absurd (hstuck.granted.symm.trans hgranted) hstuck.short
        | failed hopen hafter => exact hafter

theorem genesisDone_step (hstandard : wiring.Standard) (hrostered : wiring.Rostered)
    (hvalid : machine.state.Valid) (hdone : machine.state.genesisDone = true) (event : Event) :
    (machine.step wiring event).machine.state.genesisDone = true := by
  cases step_administers hstandard hrostered hvalid event with
  | refused call caller stop hevent hcaller hcode heffect hkept => rwa [hkept]
  | granted call write result hevent hcaller hwrite hgranted heffect hwritten =>
      rw [hwritten]
      exact hdone
  | other hcall hslots hsame => rwa [hsame]
  | attempted call hevent hruns hstate hattempt =>
      rw [hstate]
      cases hattempt with
      | skipped _ hafter => exact hafter
      | applied hopen =>
          rw [hopen] at hdone
          cases hdone
      | failed hopen =>
          rw [hopen] at hdone
          cases hdone

/-! ## Attempts -/

/-- Where genesis is done, an attempt succeeds and changes nothing. -/
theorem attempt_of_done (hrostered : wiring.Rostered) (hvalid : machine.state.Valid)
    (hdone : machine.state.genesisDone = true) {call : Call}
    (hruns : call.runsGenesis wiring = true) :
    machine.genesisWrites wiring (.call call) = [] ∧
      (machine.step wiring (.call call)).effect = .ended call (.ok (.flag true)) ∧
      (machine.step wiring (.call call)).machine.state.slots = machine.state.slots := by
  refine ⟨?_, ?_⟩
  · rw [genesisWrites_of_runsGenesis hruns, Genesis.writes_of_done _ hdone]
  · rw [step_call_state]
    cases Registry.begin_attempt hrostered hvalid hruns with
    | skipped _ _ houtcome hslots => exact ⟨(step_of_finished houtcome).2, hslots⟩
    | applied hopen =>
        rw [hopen] at hdone
        cases hdone
    | failed hopen =>
        rw [hopen] at hdone
        cases hdone

/-- Where genesis is stuck, an attempt makes the same writes again, and fails. -/
theorem attempt_of_stuck (hrostered : wiring.Rostered) (hvalid : machine.state.Valid)
    (hstuck : Stuck wiring again machine.state) {call : Call}
    (hruns : call.runsGenesis wiring = true) :
    machine.genesisWrites wiring (.call call) = again ∧
      (∃ fault, (machine.step wiring (.call call)).effect =
        .ended call (.error (.failed fault))) ∧
      (machine.step wiring (.call call)).machine.state.slots =
        machine.state.slots.afterAll again := by
  refine ⟨?_, ?_⟩
  · rw [genesisWrites_of_runsGenesis hruns, Genesis.writes_of_open hvalid _ hstuck.undone,
      hstuck.granted]
  · rw [step_call_state]
    cases Registry.begin_attempt hrostered hvalid hruns with
    | skipped hdone =>
        rw [hstuck.undone] at hdone
        cases hdone
    | applied _ _ hgranted => exact absurd (hstuck.granted.symm.trans hgranted) hstuck.short
    | failed _ _ _ fault houtcome hslots =>
        rw [hstuck.granted] at hslots
        exact ⟨⟨fault, (step_of_stopped houtcome).2⟩, hslots⟩

/-- After an attempt genesis is done, or stuck with the class references that the attempt wrote. -/
theorem attempt_cases (hrostered : wiring.Rostered) (hvalid : machine.state.Valid) {call : Call}
    (hruns : call.runsGenesis wiring = true) :
    let step := machine.step wiring (.call call)
    let made := machine.genesisWrites wiring (.call call)
    made <+: wiring.spec.writes ∧
    ((step.effect = .ended call (.ok (.flag true)) ∧ step.machine.state.genesisDone = true ∧
        (machine.state.genesisDone = false → made = wiring.spec.writes)) ∨
      ((∃ fault, step.effect = .ended call (.error (.failed fault))) ∧
        made ≠ wiring.spec.writes ∧
        Stuck wiring (made.filter Write.isReference) step.machine.state)) := by
  intro step made
  have hstate : step.machine.state = _ := step_call_state wiring machine call
  have hmade : made = _ := genesisWrites_of_runsGenesis hruns
  rw [hstate]
  cases Registry.begin_attempt hrostered hvalid hruns with
  | skipped hdone hafter houtcome _ =>
      rw [hmade, Genesis.writes_of_done _ hdone]
      refine ⟨List.nil_prefix, .inl ⟨(step_of_finished houtcome).2, hafter, fun hopen => ?_⟩⟩
      rw [hdone] at hopen
      cases hopen
  | applied hopen hafter hgranted houtcome _ =>
      rw [hmade, Genesis.writes_of_open hvalid _ hopen]
      exact ⟨Slots.prefix_granted _ _, .inl ⟨(step_of_finished houtcome).2, hafter,
        fun _ => hgranted⟩⟩
  | failed hopen hafter hrefused fault houtcome hslots =>
      rw [hmade, Genesis.writes_of_open hvalid _ hopen]
      exact ⟨Slots.prefix_granted _ _, .inr ⟨⟨fault, (step_of_stopped houtcome).2⟩, hrefused,
        stuck_of_failed hafter hrefused hslots⟩⟩

/-! ## Runs -/

section Runs

variable (hstandard : wiring.Standard) (hdeployer : Address.IsNative wiring.identity.deployer)
  (hrostered : wiring.Rostered)

include hstandard hdeployer hrostered

theorem Stuck.run (hvalid : machine.Valid wiring) (hstuck : Stuck wiring again machine.state)
    (events : List Event) : Stuck wiring again (machine.run wiring events).state := by
  have hstep (machine : Machine) (event : Event)
      (hboth : machine.Valid wiring ∧ Stuck wiring again machine.state) :
      (machine.step wiring event).machine.Valid wiring ∧
        Stuck wiring again (machine.step wiring event).machine.state :=
    ⟨hboth.1.step hstandard hdeployer event,
      hboth.2.step hstandard hrostered hboth.1.state event⟩
  exact (run_induction hstep ⟨hvalid, hstuck⟩ events).2

theorem genesisDone_run (hvalid : machine.Valid wiring)
    (hdone : machine.state.genesisDone = true) (events : List Event) :
    (machine.run wiring events).state.genesisDone = true := by
  have hstep (machine : Machine) (event : Event)
      (hboth : machine.Valid wiring ∧ machine.state.genesisDone = true) :
      (machine.step wiring event).machine.Valid wiring ∧
        (machine.step wiring event).machine.state.genesisDone = true :=
    ⟨hboth.1.step hstandard hdeployer event,
      genesisDone_step hstandard hrostered hboth.1.state hboth.2 event⟩
  exact (run_induction hstep ⟨hvalid, hdone⟩ events).2

end Runs

/-- Whether an event makes the genesis service attempt genesis. -/
def attempting (wiring : Wiring) (moment : Moment Machine Event) : Bool :=
  match moment.event with
  | .call call => call.runsGenesis wiring
  | .reply _ => false

/-- What each attempt at genesis in a run writes. -/
def attempts (wiring : Wiring) (machine : Machine) (events : List Event) : List (List Write) :=
  ((machine.moments wiring events).filter (attempting wiring)).map fun moment =>
    moment.before.genesisWrites wiring moment.event

theorem attempts_cons_of_runs {call : Call} (hruns : call.runsGenesis wiring = true)
    (rest : List Event) :
    machine.attempts wiring (.call call :: rest) =
      machine.genesisWrites wiring (.call call) ::
        (machine.step wiring (.call call)).machine.attempts wiring rest := by
  have hattempting : attempting wiring ⟨machine, .call call⟩ = true := hruns
  rw [attempts, moments, momentsFrom_cons, List.filter_cons_of_pos hattempting]
  rfl

theorem attempts_cons_of_not {event : Event}
    (hother : attempting wiring ⟨machine, event⟩ = false) (rest : List Event) :
    machine.attempts wiring (event :: rest) =
      (machine.step wiring event).machine.attempts wiring rest := by
  rw [attempts, moments, momentsFrom_cons, List.filter_cons_of_neg (Bool.eq_false_iff.mp hother)]
  rfl

/-- An attempt of a run is one of its calls, after the events that came before it. -/
theorem mem_attempts {events : List Event} {made : List Write}
    (hmem : made ∈ machine.attempts wiring events) :
    ∃ part call, call.runsGenesis wiring = true ∧
      made = (machine.run wiring part).genesisWrites wiring (.call call) := by
  obtain ⟨⟨before, event⟩, hmoment, rfl⟩ := List.mem_map.mp hmem
  obtain ⟨hmoment, hruns⟩ := List.mem_filter.mp hmoment
  obtain ⟨part, rfl⟩ := before_of_mem_moments wiring hmoment
  cases event with
  | call call => exact ⟨part, call, hruns, rfl⟩
  | reply reply => cases hruns

section Runs

variable (hstandard : wiring.Standard) (hdeployer : Address.IsNative wiring.identity.deployer)
  (hrostered : wiring.Rostered)

include hstandard hdeployer hrostered

theorem attempts_of_done (hvalid : machine.Valid wiring)
    (hdone : machine.state.genesisDone = true) (events : List Event) :
    ∃ times, machine.attempts wiring events = List.replicate times [] := by
  refine ⟨_, List.eq_replicate_of_mem fun made hmem => ?_⟩
  obtain ⟨part, call, hruns, rfl⟩ := mem_attempts hmem
  exact (attempt_of_done hrostered (hvalid.run hstandard hdeployer part).state
    (genesisDone_run hstandard hdeployer hrostered hvalid hdone part) hruns).1

theorem attempts_of_stuck (hvalid : machine.Valid wiring)
    (hstuck : Stuck wiring again machine.state) (events : List Event) :
    ∃ times, machine.attempts wiring events = List.replicate times again := by
  refine ⟨_, List.eq_replicate_of_mem fun made hmem => ?_⟩
  obtain ⟨part, call, hruns, rfl⟩ := mem_attempts hmem
  exact (attempt_of_stuck hrostered (hvalid.run hstandard hdeployer part).state
    (hstuck.run hstandard hdeployer hrostered hvalid part) hruns).1

/-- The first attempt of a run makes writes of the spec in their order.  If these are all of them,
the later attempts write nothing, and otherwise each of them writes the class references once
more. -/
theorem attempts_cases (hvalid : machine.Valid wiring)
    (hopen : machine.state.genesisDone = false) (events : List Event) :
    machine.attempts wiring events = [] ∨
      ∃ made times, made <+: wiring.spec.writes ∧
        machine.attempts wiring events = made :: List.replicate times
          (if made = wiring.spec.writes then [] else made.filter Write.isReference) := by
  induction events generalizing machine with
  | nil => exact .inl rfl
  | cons event rest ih =>
      have hnext := hvalid.step hstandard hdeployer event
      cases hruns : attempting wiring ⟨machine, event⟩ with
      | false =>
          rw [attempts_cons_of_not hruns]
          refine ih hnext ?_
          cases step_administers hstandard hrostered hvalid.state event with
          | refused call caller stop hevent hcaller hcode heffect hkept => rwa [hkept]
          | granted call write result hevent hcaller hwrite hgranted heffect hwritten =>
              rw [hwritten]
              exact hopen
          | other hcall hslots hdone => rwa [hdone]
          | attempted call hevent hcalled =>
              cases hevent
              rw [show attempting wiring ⟨machine, .call call⟩ = true from hcalled] at hruns
              cases hruns
      | true =>
          cases event with
          | reply reply => cases hruns
          | call call =>
              rw [attempts_cons_of_runs hruns]
              obtain ⟨hleading, ⟨-, hdone, hall⟩ | ⟨-, hshort, hstuck⟩⟩ :=
                attempt_cases hrostered hvalid.state hruns
              · obtain ⟨times, hrest⟩ :=
                  attempts_of_done hstandard hdeployer hrostered hnext hdone rest
                refine .inr ⟨_, times, hleading, ?_⟩
                rw [if_pos (hall hopen), hrest]
              · obtain ⟨times, hrest⟩ :=
                  attempts_of_stuck hstandard hdeployer hrostered hnext hstuck rest
                refine .inr ⟨_, times, hleading, ?_⟩
                rw [if_neg hshort, hrest]

end Runs

theorem step_attempt (hstandard : wiring.Standard) (hrostered : wiring.Rostered)
    (hvalid : machine.state.Valid) {call : Call} (hruns : call.runsGenesis wiring = true) :
    (machine.step wiring (.call call)).machine.state.slots =
      machine.state.slots.afterAll (machine.genesisWrites wiring (.call call)) := by
  rw [(step_writes hstandard hrostered hvalid _).1, writes_of_runsGenesis hruns,
    genesisWrites_of_runsGenesis hruns]

end Machine

/-! ## Every run -/

/-- Apart from class references, no slot is written twice by a list of attempts of which all but the
first write class references alone. -/
theorem Spec.nodup_attempts {spec : Spec} {made again : List Write}
    (hleading : made <+: spec.writes) (hagain : ∀ write ∈ again, write.isReference = true)
    (times : Nat) :
    (((made :: List.replicate times again).flatten.filter fun write => !write.isReference).map
      Write.slot).Nodup := by
  have hlater : (List.replicate times again).flatten.filter (fun write => !write.isReference) =
      [] := by
    rw [List.filter_eq_nil_iff]
    intro write hmem
    obtain ⟨part, hpart, hwrite⟩ := List.mem_flatten.mp hmem
    rw [(List.mem_replicate.mp hpart).2] at hwrite
    simp [hagain write hwrite]
  rw [List.flatten_cons, List.filter_append, hlater, List.append_nil]
  exact ((List.filter_sublist.trans hleading.sublist).map _).nodup spec.nodup_writes

/-- In every run of a created registry the attempts at genesis write the native token and the block
context at most once.  After an attempt that succeeded an init succeeds and writes nothing.  After
an attempt that failed, whatever happens in between, an init fails and writes exactly the class
references again that the attempt wrote. -/
theorem repeated_genesis_writes_references_alone {hash : Hash} {setup : Setup}
    {launched : Launched} (hcreated : Launched.create hash setup = .ok launched) :
    let wiring := launched.wiring
    let start := Machine.idle launched.state
    (∀ events : List Event,
      let attempts := start.attempts wiring events
      (attempts = [] ∨
        ∃ made times, made <+: wiring.spec.writes ∧
          attempts = made :: List.replicate times
            (if made = wiring.spec.writes then [] else made.filter Write.isReference)) ∧
      ((attempts.flatten.filter fun write => !write.isReference).map Write.slot).Nodup) ∧
    (∀ (events between : List Event) (first second : Call),
      first.runsGenesis wiring = true → second.runsGenesis wiring = true →
      let machine := start.run wiring events
      let attempt := machine.step wiring (.call first)
      let later := attempt.machine.run wiring between
      let repeated := later.step wiring (.call second)
      let made := machine.genesisWrites wiring (.call first)
      let remade := later.genesisWrites wiring (.call second)
      (made.map Write.slot).Nodup ∧
      attempt.machine.state.slots = machine.state.slots.afterAll made ∧
      repeated.machine.state.slots = later.state.slots.afterAll remade ∧
      ((attempt.effect = .ended first (.ok (.flag true)) ∧
          repeated.effect = .ended second (.ok (.flag true)) ∧ remade = []) ∨
        ((∃ fault, attempt.effect = .ended first (.error (.failed fault))) ∧
          (∃ fault, repeated.effect = .ended second (.error (.failed fault))) ∧
          remade = made.filter Write.isReference))) := by
  intro wiring start
  have hstandard : wiring.Standard := Launched.create_standard hcreated
  have hdeployer : Address.IsNative wiring.identity.deployer := Launched.create_deployer hcreated
  have hrostered : wiring.Rostered := Launched.create_rostered hcreated
  have hstart : start.Valid wiring := .create hcreated
  refine ⟨?_, ?_⟩
  · intro events attempts
    have hopen : start.state.genesisDone = false := by
      rw [show start.state = _ from (Launched.create_eq_ok hcreated).2]
      rfl
    have hcases := Machine.attempts_cases hstandard hdeployer hrostered hstart hopen events
    refine ⟨hcases, ?_⟩
    rcases hcases with hnone | ⟨made, times, hleading, hattempts⟩
    · rw [show attempts = [] from hnone]
      exact List.nodup_nil
    · rw [show attempts = _ from hattempts]
      refine Spec.nodup_attempts hleading (fun write hmem => ?_) times
      split at hmem
      · cases hmem
      · exact (List.mem_filter.mp hmem).2
  · intro events between first second hfirst hsecond machine attempt later repeated made remade
    have hmachine : machine.Valid wiring := hstart.run hstandard hdeployer events
    have hattempt : attempt.machine.Valid wiring := hmachine.step hstandard hdeployer _
    have hlater : later.Valid wiring := hattempt.run hstandard hdeployer between
    obtain ⟨hleading, hended⟩ := Machine.attempt_cases hrostered hmachine.state hfirst
    refine ⟨(hleading.sublist.map _).nodup wiring.spec.nodup_writes,
      Machine.step_attempt hstandard hrostered hmachine.state hfirst,
      Machine.step_attempt hstandard hrostered hlater.state hsecond, ?_⟩
    rcases hended with ⟨heffect, hdone, -⟩ | ⟨heffect, -, hstuck⟩
    · obtain ⟨hremade, hrepeated, -⟩ := Machine.attempt_of_done hrostered hlater.state
        (Machine.genesisDone_run hstandard hdeployer hrostered hattempt hdone between) hsecond
      exact .inl ⟨heffect, hrepeated, hremade⟩
    · obtain ⟨hremade, hrepeated, -⟩ := Machine.attempt_of_stuck hrostered hlater.state
        (hstuck.run hstandard hdeployer hrostered hattempt between) hsecond
      exact .inr ⟨heffect, hrepeated, hremade⟩

/-- The owner sets the native token first, so that genesis fails behind the proxy; what the owner
makes of the proxy then is overwritten by the next init. -/
theorem repeated_genesis_writes_references_alone_after_failure :
    let wiring := (Launched.furnished .toSalt).wiring
    let machine := (Machine.idle (Launched.furnished .toSalt).state).run wiring
      [.call (.setNativeToken 2 6)]
    let attempt := machine.step wiring (.call .initAll)
    let later := attempt.machine.run wiring [.call (.setClassReference 2 "proxy" 10)]
    let repeated := later.step wiring (.call .initGenesis)
    let remade := later.genesisWrites wiring (.call .initGenesis)
    attempt.effect.stop?.isSome = true ∧
      later.state.references.slot .proxy = some ⟨10, 2⟩ ∧
      remade = (machine.genesisWrites wiring (.call .initAll)).filter Write.isReference ∧
      remade = [.reference .proxy 9] ∧
      repeated.machine.state.slots = later.state.slots.afterAll remade := by
  have hfailed : ((((Machine.idle (Launched.furnished .toSalt).state).run
      (Launched.furnished .toSalt).wiring [.call (.setNativeToken 2 6)]).step
      (Launched.furnished .toSalt).wiring (.call .initAll)).effect.stop?).isSome = true := by
    decide +kernel
  have hlaw := (repeated_genesis_writes_references_alone (Launched.create_furnished .toSalt)).2
    [.call (.setNativeToken 2 6)] [.call (.setClassReference 2 "proxy" 10)] .initAll .initGenesis
    rfl rfl
  dsimp only at hlaw ⊢
  obtain ⟨-, -, hwritten, hended⟩ := hlaw
  refine ⟨hfailed, by decide +kernel, ?_, by decide +kernel, hwritten⟩
  rcases hended with ⟨heffect, -, -⟩ | ⟨-, -, hremade⟩
  · rw [heffect] at hfailed
    cases hfailed
  · exact hremade

/-- In the run of a registry whose first init fails, genesis writes one slot twice, and the second
time it overwrites what the owner has set after the first. -/
theorem genesis_overwrites_after_failure :
    let wiring := (Launched.furnished .toSalt).wiring
    let start := Machine.idle (Launched.furnished .toSalt).state
    let events : List Event := [.call (.setNativeToken 2 6), .call .initAll,
      .call (.setClassReference 2 "proxy" 10)]
    let repeated := events ++ [.call .initAll]
    ¬ ((start.attempts wiring repeated).flatten.map Write.slot).Nodup ∧
      (start.run wiring events).state.references.slot .proxy = some ⟨10, 2⟩ ∧
      (start.run wiring repeated).state.references.slot .proxy = some ⟨9, 3⟩ := by
  decide +kernel

end AccountRegistry
