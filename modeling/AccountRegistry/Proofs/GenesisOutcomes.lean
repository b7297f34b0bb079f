import AccountRegistry.Proofs.Startup

/-!
# Genesis from any configuration

Genesis may be attempted when ownership was handed over, when slots were set before, and after
attempts that failed.  As no slot is written twice by a spec, what is granted in the end is what was
granted in the slots as the attempt found them.

* `Slots.granted_cases`: either every write is granted there, or those before the first that is not
  are made.
* `Leaves`, with `leaves_withSlots`: what writes to different slots leave behind.
* `Spec.Obstructed`: what keeps the writes of a spec from being made.
* `genesis_ends_at_the_first_obstacle`: an init of every state that a run leads to, and the state
  that an operator finds after it.
-/

namespace AccountRegistry

open Procedure

/-! ## Writes to different slots -/

namespace Slots

variable {slots : Slots} {write other : Write} {writes : List Write}

/-- Whether a write is granted is a matter of its own slot. -/
theorem granted_after_iff (hslot : other.slot ≠ write.slot) :
    write.Granted (slots.after other) ↔ write.Granted slots := by
  refine and_congr_left fun _ => ?_
  cases write with
  | nativeToken address =>
      show (slots.after other).nativeToken = none ↔ slots.nativeToken = none
      rw [nativeToken_after slots hslot]
  | _ => exact Iff.rfl

/-- Of writes to different slots either all are granted in the slots as they are before the first,
or those are made that come before one that is not. -/
theorem granted_cases (slots : Slots) (hnodup : (writes.map Write.slot).Nodup) :
    (slots.granted writes = writes ∧ ∀ write ∈ writes, write.Granted slots) ∨
      ∃ write later, writes = slots.granted writes ++ write :: later ∧
        (∀ earlier ∈ slots.granted writes, earlier.Granted slots) ∧ ¬ write.Granted slots := by
  induction writes generalizing slots with
  | nil => exact .inl ⟨rfl, fun _ hmem => absurd hmem List.not_mem_nil⟩
  | cons first rest ih =>
      rw [List.map_cons, List.nodup_cons] at hnodup
      by_cases hfirst : first.Granted slots
      · -- what is granted after the first write was granted before it
        have hback : ∀ write ∈ rest,
            (write.Granted (slots.after first) ↔ write.Granted slots) := by
          intro write hmem
          refine granted_after_iff fun hsame => hnodup.1 ?_
          rw [hsame]
          exact List.mem_map_of_mem hmem
        rw [granted_cons hfirst]
        rcases ih (slots.after first) hnodup.2 with
          ⟨hall, hgranted⟩ | ⟨write, later, hsplit, hgranted, hrefused⟩
        · refine .inl ⟨by rw [hall], List.forall_mem_cons.mpr ⟨hfirst, ?_⟩⟩
          exact fun write hmem => (hback write hmem).mp (hgranted write hmem)
        · have hmem : write ∈ rest := by rw [hsplit]; simp
          refine .inr ⟨write, later, ?_, List.forall_mem_cons.mpr ⟨hfirst, ?_⟩, ?_⟩
          · rw [List.cons_append, ← hsplit]
          · intro earlier hearlier
            exact (hback earlier ((prefix_granted _ _).subset hearlier)).mp
              (hgranted earlier hearlier)
          · exact fun hgranted => hrefused ((hback write hmem).mpr hgranted)
      · rw [granted_cons_of_not hfirst]
        exact .inr ⟨first, rest, rfl, fun _ hmem => absurd hmem List.not_mem_nil, hfirst⟩

theorem AgreeAt.trans {first second third : Slots} {slot : Slot}
    (hfirst : first.AgreeAt second slot) (hsecond : second.AgreeAt third slot) :
    first.AgreeAt third slot := by
  cases slot with
  | _ => exact Eq.trans hfirst hsecond

/-- What a write puts into its slot depends on that slot alone. -/
theorem AgreeAt.after {first second : Slots} (hagree : first.AgreeAt second write.slot) :
    (first.after write).AgreeAt (second.after write) write.slot := by
  cases write with
  | owner newOwner | nativeToken address => rfl
  | reference kind value =>
      have hversion : first.references.version kind = second.references.version kind := by
        have hslot : first.references.slot kind = second.references.slot kind := hagree
        rw [ClassReferences.version_eq, ClassReferences.version_eq, hslot]
      show (first.references.set kind value).slot kind =
        (second.references.set kind value).slot kind
      rw [ClassReferences.set, ClassReferences.set, ClassReferences.slot_withSlot_self,
        ClassReferences.slot_withSlot_self, hversion]
  | context coinbase baseFee =>
      have hversion : first.contextVersion = second.contextVersion :=
        congrArg (fun context => Option.elim context 0 ChainContext.version) hagree
      show (first.after (.context coinbase baseFee)).context =
        (second.after (.context coinbase baseFee)).context
      simp only [Slots.after, hversion]

/-- Each of several writes to different slots leaves in its slot what it would leave there alone. -/
theorem afterAll_agreeAt_of_mem (hnodup : (writes.map Write.slot).Nodup) (hmem : write ∈ writes) :
    (slots.afterAll writes).AgreeAt (slots.after write) write.slot := by
  induction writes generalizing slots with
  | nil => cases hmem
  | cons first rest ih =>
      rw [List.map_cons, List.nodup_cons] at hnodup
      have hlater : ∀ later ∈ rest, later.slot ≠ first.slot := by
        intro later hlater hsame
        rw [← hsame] at hnodup
        exact hnodup.1 (List.mem_map_of_mem hlater)
      rcases List.mem_cons.mp hmem with rfl | hrest
      · exact afterAll_agreeAt hlater
      · have hbefore : (slots.after first).AgreeAt slots write.slot :=
          after_agreeAt (hlater write hrest).symm
        exact (ih hnodup.2 hrest).trans hbefore.after

end Slots

/-! ## What is left behind -/

/-- The state after certain writes, as an operator finds it: a slot that was written holds the value
of its write, a class reference and a block context with a version raised by one, and everything
else is as it was.  The marks of the services are another matter. -/
structure Leaves (made : List Write) (state after : State) : Prop where
  references : ∀ kind value, .reference kind value ∈ made →
    after.references.slot kind = some ⟨value, state.references.version kind + 1⟩
  otherReferences : ∀ kind, (∀ value, .reference kind value ∉ made) →
    after.references.slot kind = state.references.slot kind
  nativeToken : ∀ address, .nativeToken address ∈ made → after.nativeToken = some address
  otherToken : (∀ address, .nativeToken address ∉ made) → after.nativeToken = state.nativeToken
  context : ∀ coinbase baseFee, .context coinbase baseFee ∈ made →
    after.context = some ⟨coinbase, baseFee, Configuration.contextVersion state + 1⟩
  otherContext : (∀ coinbase baseFee, .context coinbase baseFee ∉ made) →
    after.context = state.context
  owner : after.owner = state.owner
  table : after.table = state.table
  code : after.code = state.code
  running : after.running = state.running

/-- Writes to different slots, none of which is the owner's, leave what they set. -/
theorem leaves_withSlots (state : State) {made : List Write}
    (hnodup : (made.map Write.slot).Nodup) (howner : ∀ write ∈ made, write.slot ≠ .owner) :
    Leaves made state (state.withSlots (state.slots.afterAll made)) := by
  have hwritten {write : Write} (hmem : write ∈ made) :
      (state.slots.afterAll made).AgreeAt (state.slots.after write) write.slot :=
    Slots.afterAll_agreeAt_of_mem hnodup hmem
  have hkept (slot : Slot) (hslot : ∀ write ∈ made, write.slot ≠ slot) :
      (state.slots.afterAll made).AgreeAt state.slots slot := Slots.afterAll_agreeAt hslot
  exact {
    references := by
      intro kind value hmem
      have hslot : (state.slots.afterAll made).references.slot kind =
          (state.references.set kind value).slot kind := hwritten hmem
      exact hslot.trans (ClassReferences.slot_withSlot_self _ _ _)
    otherReferences := by
      intro kind hnone
      refine hkept (.reference kind) fun write hmem hslot => ?_
      cases write with
      | reference other value => cases hslot; exact hnone value hmem
      | _ => cases hslot
    nativeToken := fun address hmem => hwritten hmem
    otherToken := by
      intro hnone
      refine hkept .nativeToken fun write hmem hslot => ?_
      cases write with
      | nativeToken address => exact hnone address hmem
      | _ => cases hslot
    context := by
      intro coinbase baseFee hmem
      rw [← State.contextVersion_slots]
      exact hwritten hmem
    otherContext := by
      intro hnone
      refine hkept .context fun write hmem hslot => ?_
      cases write with
      | context coinbase baseFee => exact hnone coinbase baseFee hmem
      | _ => cases hslot
    owner := hkept .owner howner
    table := rfl
    code := rfl
    running := rfl }

/-! ## Obstacles -/

/-- A value of the spec is out of range, or the spec has a native token and one is set already. -/
def Spec.Obstructed (spec : Spec) (state : State) : Prop :=
  (∃ kind value, spec.reference? kind = some value ∧ ¬ Address.IsClassReference value) ∨
    (∃ token, spec.nativeToken = some token ∧
      (¬ Address.IsNative token ∨ state.nativeToken ≠ none)) ∨
    ∃ context, spec.chainContext = some context ∧
      (¬ Address.IsNative context.coinbase ∨ context.baseFee < 0)

namespace Write

variable {slots : Slots}

theorem granted_reference_iff {kind : ClassKind} {value : Int} :
    (reference kind value).Granted slots ↔ Address.IsClassReference value := by
  simp only [Granted, Fits, faults, Fault.unless_eq_nil, true_and]

theorem granted_nativeToken_iff {address : Int} :
    (nativeToken address).Granted slots ↔
      slots.nativeToken = none ∧ Address.IsNative address := by
  simp only [Granted, Fits, faults, Fault.unless_eq_nil]

theorem granted_context_iff {coinbase baseFee : Int} :
    (context coinbase baseFee).Granted slots ↔ Address.IsNative coinbase ∧ 0 ≤ baseFee := by
  simp only [Granted, Fits, faults, List.append_eq_nil_iff, Fault.unless_eq_nil, true_and]

end Write

/-- An obstacle is a write of the spec that is not granted. -/
theorem Spec.obstructed_iff {spec : Spec} {state : State} :
    spec.Obstructed state ↔ ∃ write ∈ spec.writes, ¬ write.Granted state.slots := by
  have htoken : state.slots.nativeToken = state.nativeToken := rfl
  constructor
  · rintro (⟨kind, value, hvalue, hrange⟩ | ⟨token, hvalue, hbad⟩ | ⟨context, hvalue, hbad⟩)
    · exact ⟨_, Spec.mem_writes.mpr (.inl ⟨kind, value, hvalue, rfl⟩),
        Write.granted_reference_iff.not.mpr hrange⟩
    · refine ⟨_, Spec.mem_writes.mpr (.inr (.inl ⟨token, hvalue, rfl⟩)), ?_⟩
      rw [Write.granted_nativeToken_iff, htoken]
      tauto
    · refine ⟨_, Spec.mem_writes.mpr (.inr (.inr ⟨context, hvalue, rfl⟩)), ?_⟩
      rw [Write.granted_context_iff, not_and_or, not_le]
      exact hbad
  · rintro ⟨write, hmem, hrefused⟩
    rcases Spec.mem_writes.mp hmem with ⟨kind, value, hvalue, rfl⟩ | ⟨token, hvalue, rfl⟩ |
      ⟨context, hvalue, rfl⟩
    · exact .inl ⟨kind, value, hvalue, Write.granted_reference_iff.not.mp hrefused⟩
    · refine .inr (.inl ⟨token, hvalue, ?_⟩)
      rw [Write.granted_nativeToken_iff, htoken] at hrefused
      tauto
    · refine .inr (.inr ⟨context, hvalue, ?_⟩)
      rwa [Write.granted_context_iff, not_and_or, not_le] at hrefused

/-! ## An init -/

/-- The marks of the services are no part of what writes leave behind. -/
theorem Leaves.markInitialized {made : List Write} {state after : State}
    (hleaves : Leaves made state after) (service : ServiceId) :
    Leaves made state (after.markInitialized service) :=
  { hleaves with }

/-- An init that finds no obstacle makes all writes of the spec, and genesis is done. -/
theorem Genesis.init_of_not_obstructed {state : State} (hvalid : state.Valid) {spec : Spec}
    (hopen : state.genesisDone = false) (hobstructed : ¬ spec.Obstructed state) :
    (init spec state).outcome = .ok () ∧ Leaves spec.writes state (init spec state).state ∧
      (init spec state).state.initialized =
        (state.markInitialized .genesis).initialized := by
  rw [Spec.obstructed_iff] at hobstructed
  rcases init_cases hvalid spec with ⟨hdone, -⟩ | ⟨-, -, houtcome, hstate⟩ | ⟨-, hsome, -⟩
  · rw [hopen] at hdone
    cases hdone
  · rw [hstate]
    exact ⟨houtcome, (leaves_withSlots state spec.nodup_writes
      fun _ => Spec.slot_of_mem_writes).markInitialized _, rfl⟩
  · rcases Slots.granted_cases state.slots spec.nodup_writes with
      ⟨hall, -⟩ | ⟨write, later, hsplit, -, hrefused⟩
    · exact absurd hall hsome
    · refine absurd ⟨write, ?_, hrefused⟩ hobstructed
      rw [hsplit]
      simp

/-- An init that finds an obstacle makes the writes before it. -/
theorem Genesis.init_of_obstructed {state : State} (hvalid : state.Valid) {spec : Spec}
    (hopen : state.genesisDone = false) (hobstructed : spec.Obstructed state) :
    (∃ fault, (init spec state).outcome = .error (.failed fault) ∧
      fault.code? ≠ some .unauthorized) ∧
    ∃ before write later, spec.writes = before ++ write :: later ∧
      (∀ earlier ∈ before, earlier.Granted state.slots) ∧ ¬ write.Granted state.slots ∧
      Leaves before state (init spec state).state ∧
      (init spec state).state.slots.AgreeAt state.slots write.slot ∧
      (init spec state).state.initialized = state.initialized := by
  obtain ⟨obstacle, hobstacle, hobstructs⟩ := Spec.obstructed_iff.mp hobstructed
  rcases Slots.granted_cases state.slots spec.nodup_writes with
    ⟨-, hgranted⟩ | ⟨write, later, hsplit, hgranted, hrefused⟩
  · exact absurd (hgranted obstacle hobstacle) hobstructs
  · rcases init_cases hvalid spec with ⟨hdone, -⟩ | ⟨-, hall, -⟩ | ⟨-, -, hended, hstate⟩
    · rw [hopen] at hdone
      cases hdone
    · rw [hall, List.self_eq_append_right] at hsplit
      cases hsplit
    · have hdifferent := hsplit ▸ spec.nodup_writes
      rw [List.map_append, List.map_cons, List.nodup_append] at hdifferent
      refine ⟨hended, state.slots.granted spec.writes, write, later, hsplit, hgranted, hrefused,
        ?_⟩
      rw [hstate]
      refine ⟨leaves_withSlots state hdifferent.1 fun earlier hmem =>
        Spec.slot_of_mem_writes ((Slots.prefix_granted _ _).subset hmem), ?_, rfl⟩
      exact Slots.afterAll_agreeAt fun earlier hmem =>
        hdifferent.2.2 _ (List.mem_map_of_mem hmem) _ List.mem_cons_self

/-- The call ends as the init does. -/
theorem Machine.step_initGenesis (wiring : Wiring) (machine : Machine) :
    let ending := Genesis.init wiring.spec machine.state
    (machine.step wiring (.call .initGenesis)).machine = ⟨ending.state, machine.waiting⟩ ∧
      (machine.step wiring (.call .initGenesis)).effect =
        .ended .initGenesis (ending.outcome.map fun _ => .flag true) := by
  intro ending
  have hleft : (Registry.begin wiring .initGenesis machine.state).state = ending.state :=
    Registry.finishing_state _ _ _
  rw [← hleft]
  cases hended : ending.outcome with
  | ok _ => exact step_of_finished (Registry.finishing_ok hended fun _ => Answer.flag true)
  | error stop => exact step_of_stopped (Registry.finishing_error hended fun _ => Answer.flag true)

/-- In every state that a run leads to, and for every spec: an init succeeds and changes nothing
where genesis is done.  Where it is not, it fails exactly if the spec is obstructed, and not for
want of authority; the writes of the spec before the first that is not granted are made then, and
nothing else, and genesis is as little done as before.  Otherwise all writes of the spec are made,
and genesis is done. -/
theorem genesis_ends_at_the_first_obstacle {hash : Hash} {setup : Setup} {launched : Launched}
    (hcreated : Launched.create hash setup = .ok launched) (events : List Event) :
    let spec := setup.spec
    let machine := (Machine.idle launched.state).run launched.wiring events
    let state := machine.state
    let step := machine.step launched.wiring (.call .initGenesis)
    let after := step.machine.state
    (state.genesisDone = true →
      step.effect = .ended .initGenesis (.ok (.flag true)) ∧ step.machine = machine) ∧
    (state.genesisDone = false →
      step.machine.waiting = machine.waiting ∧
      ((∃ stop, step.effect = .ended .initGenesis (.error stop)) ↔ spec.Obstructed state) ∧
      (spec.Obstructed state →
        (∃ fault, step.effect = .ended .initGenesis (.error (.failed fault)) ∧
          fault.code? ≠ some .unauthorized) ∧
        ∃ before write later, spec.writes = before ++ write :: later ∧
          (∀ earlier ∈ before, earlier.Granted state.slots) ∧ ¬ write.Granted state.slots ∧
          Leaves before state after ∧ after.slots.AgreeAt state.slots write.slot ∧
          after.initialized = state.initialized ∧ after.genesisDone = false) ∧
      (¬ spec.Obstructed state →
        step.effect = .ended .initGenesis (.ok (.flag true)) ∧
        Leaves spec.writes state after ∧
        after.initialized = (state.markInitialized .genesis).initialized ∧
        after.genesisDone = true)) := by
  intro spec machine state step after
  have hvalid : state.Valid := (Machine.Valid.reached hcreated events).state
  have hspec : launched.wiring.spec = spec := by
    rcases Launched.create_cases hash setup with ⟨fault, -, hfailed⟩ | ⟨-, hwired⟩
    · cases hcreated.symm.trans hfailed
    · cases hcreated.symm.trans hwired
      rfl
  obtain ⟨hmachine, heffect⟩ := Machine.step_initGenesis launched.wiring machine
  rw [hspec] at hmachine heffect
  have hafter : after = (Genesis.init spec state).state := congrArg Machine.state hmachine
  refine ⟨fun hdone => ?_, fun hopen => ⟨by rw [hmachine], ?_⟩⟩
  · rcases Genesis.init_cases hvalid spec with ⟨-, hskipped⟩ | ⟨hopen, -⟩ | ⟨hopen, -⟩
    · rw [hskipped] at hmachine heffect
      exact ⟨heffect, hmachine⟩
    · cases hdone.symm.trans hopen
    · cases hdone.symm.trans hopen
  · by_cases hobstructed : spec.Obstructed state
    · obtain ⟨⟨fault, hended, hcode⟩, before, write, later, hsplit, hgranted, hrefused, hleaves,
        hsame, hmarks⟩ := Genesis.init_of_obstructed hvalid hopen hobstructed
      rw [hended] at heffect
      rw [← hafter] at hleaves hsame hmarks
      refine ⟨⟨fun _ => hobstructed, fun _ => ⟨_, heffect⟩⟩, fun _ => ?_, absurd hobstructed⟩
      refine ⟨⟨fault, heffect, hcode⟩, before, write, later, hsplit, hgranted, hrefused, hleaves,
        hsame, hmarks, ?_⟩
      rw [State.genesisDone, hmarks]
      exact hopen
    · obtain ⟨hended, hleaves, hmarks⟩ := Genesis.init_of_not_obstructed hvalid hopen hobstructed
      rw [hended] at heffect
      rw [← hafter] at hleaves hmarks
      refine ⟨⟨?_, fun hother => absurd hother hobstructed⟩,
        fun hother => absurd hother hobstructed, fun _ => ?_⟩
      · rintro ⟨stop, hstopped⟩
        cases heffect.symm.trans hstopped
      · refine ⟨heffect, hleaves, hmarks, ?_⟩
        rw [State.genesisDone, hmarks]
        exact State.genesisDone_markInitialized state .genesis

/-- Ownership was handed over and the new owner has set the token.  Genesis fails there: the proxy
is written, by the owner of now, the token stays and the next init meets an open genesis. -/
theorem genesis_ends_at_the_first_obstacle_after_handover :
    let launched := Launched.furnished .toSalt
    let events : List Event := [.call (.transferOwnership 2 3), .call (.setNativeToken 3 6)]
    let machine := (Machine.idle launched.state).run launched.wiring events
    let step := machine.step launched.wiring (.call .initGenesis)
    (∃ fault, step.effect = .ended .initGenesis (.error (.failed fault)) ∧
      fault.code? ≠ some .unauthorized) ∧
    step.machine.state.genesisDone = false ∧
    step.machine.state.references.slot .proxy = some ⟨9, 1⟩ ∧
    step.machine.state.nativeToken = some 6 := by
  obtain ⟨-, hopen⟩ := genesis_ends_at_the_first_obstacle (Launched.create_furnished .toSalt)
    [.call (.transferOwnership 2 3), .call (.setNativeToken 3 6)]
  obtain ⟨-, -, hfails, -⟩ := hopen (by decide +kernel)
  -- the spec has a native token, and the new owner has set one
  obtain ⟨hended, before, write, later, -, -, -, -, -, -, hundone⟩ :=
    hfails (.inr (.inl ⟨5, rfl, .inr (by decide +kernel)⟩))
  show _ ∧ _ ∧ _ ∧ _
  exact ⟨hended, hundone, by decide +kernel, by decide +kernel⟩

end AccountRegistry
