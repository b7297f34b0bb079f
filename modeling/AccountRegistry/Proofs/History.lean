import AccountRegistry.Proofs.WritingRuns

/-!
# The configuration is its history

What the slots of a registry hold is determined by the writes of the run so far, taken slot by slot:
the last reference of a kind with the number of references of that kind, the last block context with
the number of contexts, the only native token, and the last new owner.

* `Slots.slot_afterAll`, `context_afterAll`, `nativeToken_afterAll`, `owner_afterAll`: this for a
  list of writes.
* `Machine.Reads`: what the calls that read the configuration end with.
* `Machine.writes_cases`: who makes the writes of an event.
* `configuration_is_its_history`: all of it for every run.
-/

namespace AccountRegistry

open Procedure

/-! ## The part of a slot in a history -/

namespace Write

/-- The reference that a write gives a kind. -/
def reference? (kind : ClassKind) : Write → Option Int
  | .reference other value => if other = kind then some value else none
  | _ => none

/-- The block context that a write sets. -/
def context? : Write → Option ContextSpec
  | .context coinbase baseFee => some ⟨coinbase, baseFee⟩
  | _ => none

/-- The native token that a write sets. -/
def nativeToken? : Write → Option Int
  | .nativeToken address => some address
  | _ => none

/-- The owner that a write puts in place. -/
def owner? : Write → Option Int
  | .owner newOwner => some newOwner
  | _ => none

theorem reference?_eq_none {kind : ClassKind} {write : Write}
    (hslot : write.slot ≠ .reference kind) : write.reference? kind = none := by
  cases write with
  | reference other value =>
      have hother : other ≠ kind := fun hsame => hslot (by rw [hsame]; rfl)
      exact if_neg hother
  | _ => rfl

end Write

theorem ClassReferences.version_eq (store : ClassReferences) (kind : ClassKind) :
    store.version kind = (store.slot kind).elim 0 ReferenceSlot.version := by
  unfold version
  cases store.slot kind <;> rfl

namespace Slots

/-- Slots to which nothing was written yet. -/
def fresh (owner : Int) : Slots :=
  ⟨owner, .empty, none, none⟩

/-- Two configurations hold the same in a slot. -/
def AgreeAt (first second : Slots) : Slot → Prop
  | .owner => first.owner = second.owner
  | .reference kind => first.references.slot kind = second.references.slot kind
  | .nativeToken => first.nativeToken = second.nativeToken
  | .context => first.context = second.context

variable {slots : Slots} {write : Write} {writes : List Write}

/-- A write to one slot leaves the others alone. -/
theorem after_agreeAt {slot : Slot} (hslot : write.slot ≠ slot) :
    (slots.after write).AgreeAt slots slot := by
  cases write with
  | reference kind value =>
      cases slot with
      | reference other =>
          have hkind : other ≠ kind := fun hsame => hslot (by rw [hsame]; rfl)
          exact ClassReferences.slot_withSlot_of_ne _ _ hkind
      | _ => rfl
  | owner | nativeToken | context =>
      cases slot <;> first | rfl | exact absurd rfl hslot

theorem afterAll_agreeAt {slot : Slot} (hslot : ∀ write ∈ writes, write.slot ≠ slot) :
    (slots.afterAll writes).AgreeAt slots slot := by
  induction writes generalizing slots with
  | nil => cases slot <;> rfl
  | cons write rest ih =>
      obtain ⟨hwrite, hrest⟩ := List.forall_mem_cons.mp hslot
      have hfirst : (slots.after write).AgreeAt slots slot := after_agreeAt hwrite
      have hlater : ((slots.after write).afterAll rest).AgreeAt (slots.after write) slot := ih hrest
      cases slot with
      | _ => exact hlater.trans hfirst

theorem afterAll_concat (slots : Slots) (writes : List Write) (write : Write) :
    slots.afterAll (writes ++ [write]) = (slots.afterAll writes).after write :=
  afterAll_append slots writes [write]

/-- What counts its values and keeps the last one has counted as many as there are. -/
theorem elim_getLast? {α β : Type} (values : List α) {keep : α → β} {count : β → Nat}
    (hcount : ∀ value, count (keep value) = values.length) :
    (values.getLast?.map keep).elim 0 count = values.length := by
  cases hlast : values.getLast? with
  | none => rw [List.getLast?_eq_none_iff.mp hlast]; rfl
  | some last => exact hcount last

/-- A kind holds its last reference, and counts its references. -/
theorem slot_afterAll (owner : Int) (kind : ClassKind) (writes : List Write) :
    let references := writes.filterMap (Write.reference? kind)
    ((fresh owner).afterAll writes).references.slot kind =
      references.getLast?.map fun reference => ⟨reference, references.length⟩ := by
  induction writes using List.reverseRecOn with
  | nil => exact ClassReferences.slot_empty kind
  | append_singleton writes write ih =>
      rw [afterAll_concat, List.filterMap_append]
      by_cases hslot : write.slot = .reference kind
      · cases write with
        | reference other value =>
            cases hslot
            have hversion : ((fresh owner).afterAll writes).references.version kind =
                (writes.filterMap (Write.reference? kind)).length := by
              rw [ClassReferences.version_eq, ih]
              exact elim_getLast? _ fun _ => rfl
            show (((fresh owner).afterAll writes).references.set kind value).slot kind = _
            rw [ClassReferences.set, ClassReferences.slot_withSlot_self, hversion]
            simp [Write.reference?]
        | _ => cases hslot
      · have hnone : [write].filterMap (Write.reference? kind) = [] := by
          simp [Write.reference?_eq_none hslot]
        have hkept : (((fresh owner).afterAll writes).after write).references.slot kind =
            ((fresh owner).afterAll writes).references.slot kind := after_agreeAt hslot
        rw [hnone, List.append_nil, hkept, ih]

/-- The block context is the last one, and counts the contexts. -/
theorem context_afterAll (owner : Int) (writes : List Write) :
    let contexts := writes.filterMap Write.context?
    ((fresh owner).afterAll writes).context =
      contexts.getLast?.map fun context =>
        ⟨context.coinbase, context.baseFee, contexts.length⟩ := by
  induction writes using List.reverseRecOn with
  | nil => rfl
  | append_singleton writes write ih =>
      rw [afterAll_concat, List.filterMap_append]
      cases write with
      | context coinbase baseFee =>
          have hversion : ((fresh owner).afterAll writes).contextVersion =
              (writes.filterMap Write.context?).length := by
            rw [contextVersion, ih]
            exact elim_getLast? _ fun _ => rfl
          simp [after, hversion, Write.context?]
      | owner | reference | nativeToken =>
          simp only [List.filterMap_cons, Write.context?, List.filterMap_nil, List.append_nil]
          exact ih

/-- The owner is the last one that was put in place. -/
theorem owner_afterAll (owner : Int) (writes : List Write) :
    ((fresh owner).afterAll writes).owner =
      (writes.filterMap Write.owner?).getLast?.getD owner := by
  induction writes using List.reverseRecOn with
  | nil => rfl
  | append_singleton writes write ih =>
      rw [afterAll_concat]
      simp only [List.filterMap_append]
      cases write with
      | owner newOwner => simp [after, Write.owner?]
      | _ => simpa [after, Write.owner?] using ih

/-- At most one native token is set, and it is the one. -/
theorem nativeToken_afterAll (owner : Int) {writes : List Write}
    (hadmits : (fresh owner).Admits writes) :
    (writes.filterMap Write.nativeToken?).length ≤ 1 ∧
      ((fresh owner).afterAll writes).nativeToken =
        (writes.filterMap Write.nativeToken?).head? := by
  induction writes using List.reverseRecOn with
  | nil => exact ⟨Nat.zero_le 1, rfl⟩
  | append_singleton writes write ih =>
      obtain ⟨hbefore, hlast⟩ := admits_append.mp hadmits
      obtain ⟨hlength, htoken⟩ := ih hbefore
      rw [afterAll_concat, List.filterMap_append]
      cases write with
      | nativeToken address =>
          -- the slot was free, so no token came before
          have hfree : ((fresh owner).afterAll writes).nativeToken = none :=
            (admits_cons.mp hlast).1.1
          rw [htoken, List.head?_eq_none_iff] at hfree
          rw [hfree]
          exact ⟨Nat.le_refl 1, rfl⟩
      | owner | reference | context =>
          simp only [List.filterMap_cons, Write.nativeToken?, List.filterMap_nil, List.append_nil]
          exact ⟨hlength, htoken⟩

end Slots

/-! ## Reading the configuration -/

namespace Machine

variable {wiring : Wiring} {machine : Machine}

/-- A call that reads ends with an answer, or is refused because there is nothing to read. -/
def Reads (wiring : Wiring) (machine : Machine) (call : Call) (answer : Option Answer) : Prop :=
  match answer with
  | some answer => (machine.step wiring (.call call)).effect = .ended call (.ok answer)
  | none => ∃ fault, fault.code? = some .notConfigured ∧
      (machine.step wiring (.call call)).effect = .ended call (.error (.failed fault))

theorem reads_of_begin {α : Type} {call : Call} {read : State → Except Fault α}
    {answer : α → Answer} (hbegin : Registry.begin wiring call = Registry.reading read answer)
    {slot : Option α} {fault : Fault} (hcode : fault.code? = some .notConfigured)
    (hread : read machine.state = slot.elim (.error fault) .ok) :
    machine.Reads wiring call (slot.map answer) := by
  have hrun : Registry.begin wiring call machine.state =
      Registry.finishing (ofExcept (slot.elim (.error fault) .ok)) answer machine.state := by
    rw [hbegin, ← hread]
    rfl
  cases slot with
  | none =>
      refine ⟨fault, hcode, (step_of_stopped ?_).2⟩
      rw [hrun]
      rfl
  | some value =>
      refine (step_of_finished ?_).2
      rw [hrun]
      rfl

theorem reads_versionedReference (wiring : Wiring) (machine : Machine) (kind : ClassKind) :
    machine.Reads wiring (.versionedReference kind.label)
      ((machine.state.references.slot kind).map fun slot =>
        .versioned ⟨kind, slot.reference, slot.version⟩) := by
  let slot := (machine.state.references.slot kind).map fun slot =>
    (⟨kind, slot.reference, slot.version⟩ : VersionedReference)
  have hread : machine.state.references.readVersioned kind.label =
      slot.elim (.error (ClassReferences.notConfigured kind.label)) .ok := by
    have hkind : ClassReferences.kindOf kind.label = .ok kind := by simp [ClassReferences.kindOf]
    have hbind (next : ClassKind → Except Fault VersionedReference) :
        (Except.ok kind >>= next) = next kind := rfl
    rw [ClassReferences.readVersioned, hkind, hbind]
    dsimp only [slot]
    cases machine.state.references.slot kind <;> rfl
  have hreads : machine.Reads wiring (.versionedReference kind.label) (slot.map .versioned) :=
    reads_of_begin rfl rfl hread
  rwa [Option.map_map] at hreads

theorem reads_context {answer : ChainContext → Answer} {call : Call}
    (hbegin : Registry.begin wiring call = Registry.reading Configuration.context answer) :
    machine.Reads wiring call (machine.state.context.map answer) := by
  have hread : Configuration.context machine.state = machine.state.context.elim
      (.error (.registry .notConfigured "Chain context is not configured"
        (.record [("slot", .text "chainContext")]))) .ok := by
    unfold Configuration.context
    cases machine.state.context <;> rfl
  exact reads_of_begin hbegin rfl hread

theorem reads_nativeToken :
    machine.Reads wiring .nativeToken (machine.state.nativeToken.map .integer) := by
  have hread : Configuration.nativeToken machine.state = machine.state.nativeToken.elim
      (.error (.registry .notConfigured "Native token is not configured"
        (.record [("slot", .text "nativeToken")]))) .ok := by
    unfold Configuration.nativeToken
    cases machine.state.nativeToken <;> rfl
  exact reads_of_begin rfl rfl hread

theorem reads_owner : machine.Reads wiring .owner (some (.integer machine.state.owner)) :=
  rfl

/-! ## Who makes the writes -/

/-- An event makes no writes, or the one that the owner asks for, or those of an attempt at
genesis. -/
theorem writes_cases {event : Event} (hadministers : Administers wiring machine event) :
    machine.writes wiring event = [] ∨
    (∃ call write result, event = .call call ∧ call.caller? = some machine.state.owner ∧
      call.write? = some write ∧ (machine.step wiring event).effect = .ended call (.ok result) ∧
      machine.writes wiring event = [write]) ∨
    ∃ call, event = .call call ∧ call.runsGenesis wiring = true ∧
      machine.state.genesisDone = false ∧
      machine.writes wiring event =
        Write.made machine.state.owner wiring.spec.writes machine.state := by
  cases hadministers with
  | refused call caller stop hevent hcaller hcode heffect hkept =>
      rw [hevent] at heffect ⊢
      exact .inl (writes_of_refused hcaller heffect)
  | granted call write result hevent hcaller hwrite hgranted heffect hwritten =>
      rw [hevent] at heffect ⊢
      exact .inr (.inl ⟨call, write, result, rfl, hcaller, hwrite, heffect,
        writes_of_granted hcaller hwrite heffect⟩)
  | other hcall hslots hdone => exact .inl (writes_of_other hcall)
  | attempted call hevent hruns hstate hattempt =>
      rw [hevent, writes_of_runsGenesis hruns]
      cases hdone : machine.state.genesisDone with
      | true => exact .inl (Genesis.writes_of_done _ hdone)
      | false =>
          refine .inr (.inr ⟨call, rfl, hruns, rfl, ?_⟩)
          rw [Genesis.writes, if_neg (Bool.eq_false_iff.mp hdone)]

end Machine

theorem Launched.create_slots {hash : Hash} {setup : Setup} {launched : Launched}
    (hcreated : Launched.create hash setup = .ok launched) :
    launched.state.slots = .fresh launched.wiring.identity.initialOwner := by
  rw [(Launched.create_eq_ok hcreated).2]
  rfl

/-! ## Every run -/

/-- In every run of a created registry, what the configuration is read as is what was written to it:
each kind has its last reference and the number of its references, the block context is the last one
with the number of contexts, at most one native token is ever set and it is that one, and the owner
is the last one that was put in place.  An event writes nothing unless it is a privileged call of
the owner that succeeds or an attempt at genesis, and leaves alone the slots that it does not write
to.
Everything stored is in range. -/
theorem configuration_is_its_history {hash : Hash} {setup : Setup} {launched : Launched}
    (hcreated : Launched.create hash setup = .ok launched) (events : List Event) :
    let wiring := launched.wiring
    let start := Machine.idle launched.state
    let machine := start.run wiring events
    let history := start.history wiring events
    let contexts := history.filterMap Write.context?
    let context : Option ChainContext := contexts.getLast?.map fun context =>
      ⟨context.coinbase, context.baseFee, contexts.length⟩
    let tokens := history.filterMap Write.nativeToken?
    let owners := history.filterMap Write.owner?
    (∀ kind,
      let references := history.filterMap (Write.reference? kind)
      machine.Reads wiring (.versionedReference kind.label)
        (references.getLast?.map fun reference =>
          .versioned ⟨kind, reference, references.length⟩)) ∧
    (machine.Reads wiring .context (context.map .context) ∧
      machine.Reads wiring .coinbase (context.map fun context => .integer context.coinbase) ∧
      machine.Reads wiring .baseFee (context.map fun context => .integer context.baseFee)) ∧
    (tokens.length ≤ 1 ∧ machine.Reads wiring .nativeToken (tokens.head?.map .integer)) ∧
    machine.Reads wiring .owner
      (some (.integer (owners.getLast?.getD wiring.identity.initialOwner))) ∧
    (∀ moment ∈ start.moments wiring events,
      let before := moment.before
      let step := before.step wiring moment.event
      let writes := before.writes wiring moment.event
      (writes = [] ∨
        (∃ call write result, moment.event = .call call ∧
          call.caller? = some before.state.owner ∧ call.write? = some write ∧
          step.effect = .ended call (.ok result) ∧ writes = [write]) ∨
        ∃ call, moment.event = .call call ∧ call.runsGenesis wiring = true ∧
          before.state.genesisDone = false ∧
          writes = Write.made before.state.owner wiring.spec.writes before.state) ∧
      ∀ slot, (∀ write ∈ writes, write.slot ≠ slot) →
        step.machine.state.slots.AgreeAt before.state.slots slot) ∧
    (Address.IsNative machine.state.owner ∧
      (∀ kind reference, machine.state.references.reference? kind = some reference →
        Address.IsClassReference reference) ∧
      (∀ token, machine.state.nativeToken = some token → Address.IsNative token) ∧
      ∀ context, machine.state.context = some context →
        Address.IsNative context.coinbase ∧ 0 ≤ context.baseFee) := by
  intro wiring start machine history contexts context tokens owners
  have hstandard : wiring.Standard := Launched.create_standard hcreated
  have hrostered : wiring.Rostered := Launched.create_rostered hcreated
  have hvalid (part : List Event) : (start.run wiring part).Valid wiring := .reached hcreated part
  -- the slots are those of a new registry after the whole history
  obtain ⟨hslots, hadmits⟩ := Machine.run_writes hstandard (Launched.create_deployer hcreated)
    hrostered (.create hcreated) events
  rw [show (Machine.idle launched.state).state.slots = _ from Launched.create_slots hcreated]
    at hslots hadmits
  have hcontext := Slots.context_afterAll wiring.identity.initialOwner history
  obtain ⟨htokens, htoken⟩ := Slots.nativeToken_afterAll wiring.identity.initialOwner hadmits
  have howner := Slots.owner_afterAll wiring.identity.initialOwner history
  rw [← hslots] at hcontext htoken howner
  refine ⟨?_, ⟨?_, ?_, ?_⟩, ⟨htokens, ?_⟩, ?_, ?_, ?_⟩
  · intro kind references
    have hreads := Machine.reads_versionedReference wiring machine kind
    have hslot := Slots.slot_afterAll wiring.identity.initialOwner kind history
    rw [← hslots] at hslot
    rw [show machine.state.references.slot kind = _ from hslot, Option.map_map] at hreads
    exact hreads
  · have hreads : machine.Reads wiring .context (machine.state.context.map .context) :=
      Machine.reads_context rfl
    rwa [show machine.state.context = context from hcontext] at hreads
  · have hreads : machine.Reads wiring .coinbase
        (machine.state.context.map fun context => .integer context.coinbase) :=
      Machine.reads_context rfl
    rwa [show machine.state.context = context from hcontext] at hreads
  · have hreads : machine.Reads wiring .baseFee
        (machine.state.context.map fun context => .integer context.baseFee) :=
      Machine.reads_context rfl
    rwa [show machine.state.context = context from hcontext] at hreads
  · have hreads : machine.Reads wiring .nativeToken _ := Machine.reads_nativeToken
    rwa [show machine.state.nativeToken = tokens.head? from htoken] at hreads
  · have hreads : machine.Reads wiring .owner _ := Machine.reads_owner
    rwa [show machine.state.owner = _ from howner] at hreads
  · intro moment hmem before step writes
    obtain ⟨part, hpart⟩ := Machine.before_of_mem_moments wiring hmem
    have hbefore : before.state.Valid := by
      rw [show before = _ from hpart]
      exact (hvalid part).state
    refine ⟨Machine.writes_cases (Machine.step_administers hstandard hrostered hbefore _), ?_⟩
    intro slot hslot
    rw [show step.machine.state.slots = _ from
      (Machine.step_writes hstandard hrostered hbefore moment.event).1]
    exact Slots.afterAll_agreeAt hslot
  · obtain ⟨howner, hreferences, htoken, hcontext, -⟩ := (hvalid events).state
    exact ⟨howner, hreferences, htoken, hcontext⟩

/-- Genesis sets the proxy and the native token; then the owner replaces the proxy, and fails to
replace the token. -/
theorem configuration_is_its_history_after_genesis :
    let wiring := (Launched.furnished .toSalt).wiring
    let start := Machine.idle (Launched.furnished .toSalt).state
    let events : List Event :=
      [.call .initAll, .call (.setClassReference 2 "proxy" 10), .call (.setNativeToken 2 6)]
    let machine := start.run wiring events
    start.history wiring events = [.reference .proxy 9, .nativeToken 5, .reference .proxy 10] ∧
      machine.Reads wiring (.versionedReference "proxy") (some (.versioned ⟨.proxy, 10, 2⟩)) ∧
      machine.Reads wiring .nativeToken (some (.integer 5)) ∧
      machine.Reads wiring .context none := by
  intro wiring start events machine
  have hhistory : start.history wiring events =
      [.reference .proxy 9, .nativeToken 5, .reference .proxy 10] := by decide +kernel
  obtain ⟨hkinds, ⟨hcontext, -, -⟩, ⟨-, htoken⟩, -⟩ :=
    configuration_is_its_history (Launched.create_furnished .toSalt) events
  have hproxy := hkinds .proxy
  rw [hhistory] at hproxy htoken hcontext
  exact ⟨hhistory, hproxy, htoken, hcontext⟩

end AccountRegistry
