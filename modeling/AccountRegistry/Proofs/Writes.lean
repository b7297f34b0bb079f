import AccountRegistry.Proofs.Configuration
import AccountRegistry.Proofs.ValidState

/-!
# Writes to the configuration

The owner, the class references, the native token and the block context are the slots of a registry.
A privileged operation makes one `Write` to one slot.

* `Write.faults`: what is wrong with the values of a write.
* `Write.Granted`: the slot is free and there is nothing wrong with the values.
* `Write.perform_cases`: a write that is granted is made, and any other one is refused.

What is granted depends on the slots alone, so that later modules reason about `Slots` and lists of
writes and not about procedures any more.
-/

namespace AccountRegistry

open Procedure

/-! ## Slots -/

/-- What only the owner and genesis may write. -/
@[ext] structure Slots where
  owner : Int
  references : ClassReferences
  nativeToken : Option Int
  context : Option ChainContext
  deriving DecidableEq

/-- The slots of a state. -/
def State.slots (state : State) : Slots :=
  ⟨state.owner, state.references, state.nativeToken, state.context⟩

/-- The state with other slots. -/
def State.withSlots (state : State) (slots : Slots) : State :=
  { state with
    owner := slots.owner
    references := slots.references
    nativeToken := slots.nativeToken
    context := slots.context }

/-- A write to one of the slots. -/
inductive Write where
  | owner (newOwner : Int)
  | reference (kind : ClassKind) (value : Int)
  | nativeToken (address : Int)
  | context (coinbase baseFee : Int)
  deriving DecidableEq

/-- The name of a slot; each class kind is a slot of its own. -/
inductive Slot where
  | owner
  | reference (kind : ClassKind)
  | nativeToken
  | context
  deriving DecidableEq

/-- The slot that a write goes to. -/
def Write.slot : Write → Slot
  | .owner _ => .owner
  | .reference kind _ => .reference kind
  | .nativeToken _ => .nativeToken
  | .context _ _ => .context

namespace Slots

/-- How often the block context was set. -/
def contextVersion (slots : Slots) : Nat :=
  slots.context.elim 0 ChainContext.version

/-- The slots after a write. -/
def after (slots : Slots) : Write → Slots
  | .owner newOwner => { slots with owner := newOwner }
  | .reference kind value => { slots with references := slots.references.set kind value }
  | .nativeToken address => { slots with nativeToken := some address }
  | .context coinbase baseFee =>
      { slots with context := some ⟨coinbase, baseFee, slots.contextVersion + 1⟩ }

theorem owner_after (slots : Slots) {write : Write} (hslot : write.slot ≠ .owner) :
    (slots.after write).owner = slots.owner := by
  cases write with
  | owner newOwner => exact absurd rfl hslot
  | _ => rfl

theorem nativeToken_after (slots : Slots) {write : Write} (hslot : write.slot ≠ .nativeToken) :
    (slots.after write).nativeToken = slots.nativeToken := by
  cases write with
  | nativeToken address => exact absurd rfl hslot
  | _ => rfl

end Slots

theorem State.contextVersion_slots (state : State) :
    state.slots.contextVersion = Configuration.contextVersion state := by
  unfold Slots.contextVersion Configuration.contextVersion slots
  cases state.context <;> rfl

/-! ## What a write is refused for -/

/-- The fault of an integer that is no native address. -/
def Address.notNative (value : Int) : Fault :=
  .refusal .invalidNativeAddress [("value", .text (Digits.decimal value))]

/-- The fault that stands for a condition that does not hold. -/
def Fault.unless (holds : Prop) [Decidable holds] (fault : Fault) : List Fault :=
  if holds then [] else [fault]

@[simp] theorem Fault.unless_eq_nil {holds : Prop} [Decidable holds] {fault : Fault} :
    Fault.unless holds fault = [] ↔ holds := by
  unfold Fault.unless
  split <;> simp_all

theorem Fault.eq_of_mem_unless {holds : Prop} [Decidable holds] {fault other : Fault}
    (hmem : other ∈ Fault.unless holds fault) : other = fault := by
  unfold Fault.unless at hmem
  split at hmem
  · cases hmem
  · exact List.mem_singleton.mp hmem

namespace Write

/-- The faults of a write's values, in the order in which the values are checked. -/
def faults : Write → List Fault
  | .owner newOwner => Fault.unless (Address.IsNative newOwner) (Address.notNative newOwner)
  | .reference kind value =>
      Fault.unless (Address.IsClassReference value) (.refusal .invalidClassReference
        [("kind", .text kind.label), ("reference", .text (Digits.decimal value))])
  | .nativeToken address => Fault.unless (Address.IsNative address) (Address.notNative address)
  | .context coinbase baseFee =>
      Fault.unless (Address.IsNative coinbase) (Address.notNative coinbase) ++
        Fault.unless (0 ≤ baseFee) (.refusal .invalidBaseFee
          [("baseFee", .text (Digits.decimal baseFee))])

/-- The slot of the write is free; only that of the native token can be occupied. -/
def Fits (slots : Slots) : Write → Prop
  | .nativeToken _ => slots.nativeToken = none
  | _ => True

instance (slots : Slots) : (write : Write) → Decidable (write.Fits slots)
  | .nativeToken _ => inferInstanceAs (Decidable (slots.nativeToken = none))
  | .owner _ => inferInstanceAs (Decidable True)
  | .reference _ _ => inferInstanceAs (Decidable True)
  | .context _ _ => inferInstanceAs (Decidable True)

/-- The write is made if the owner asks for it. -/
def Granted (slots : Slots) (write : Write) : Prop :=
  write.Fits slots ∧ write.faults = []

instance (slots : Slots) (write : Write) : Decidable (write.Granted slots) :=
  inferInstanceAs (Decidable (_ ∧ _))

/-- The operation that makes a write, called by someone. -/
def perform (caller : Int) : Write → Procedure State Unit
  | .owner newOwner => do
      let _ ← Configuration.transferOwnership caller newOwner
  | .reference kind value => do
      let _ ← Configuration.setClassReference caller kind.label value
  | .nativeToken address => do
      let _ ← Configuration.setNativeToken caller address
  | .context coinbase baseFee => do
      let _ ← Configuration.setContext caller coinbase baseFee

end Write

/-! ## One write -/

variable {state : State}

namespace Configuration

theorem transferOwnership_faulty {newOwner : Int} (hrange : ¬ Address.IsNative newOwner) :
    transferOwnership state.owner newOwner state =
      ⟨.error (.failed (Address.notNative newOwner)), state, []⟩ := by
  simp only [transferOwnership, authorize_bind_of_owner _ _ rfl, Address.native, if_neg hrange]
  rfl

theorem setClassReference_faulty (kind : ClassKind) {value : Int}
    (hrange : ¬ Address.IsClassReference value) :
    setClassReference state.owner kind.label value state =
      ⟨.error (.failed (.refusal .invalidClassReference
        [("kind", .text kind.label), ("reference", .text (Digits.decimal value))])),
        state, []⟩ := by
  simp only [setClassReference, authorize_bind_of_owner _ _ rfl, ClassReferences.kindOf,
    ClassKind.ofLabel?_label, ofExcept_ok, pure_bind_run, hrange, not_false_eq_true, if_true]
  rfl

theorem setNativeToken_faulty {address : Int} (hfree : state.nativeToken = none)
    (hrange : ¬ Address.IsNative address) :
    setNativeToken state.owner address state =
      ⟨.error (.failed (Address.notNative address)), state, []⟩ := by
  simp only [setNativeToken, authorize_bind_of_owner _ _ rfl, get_bind, hfree, Address.native,
    if_neg hrange]
  rfl

theorem setContext_faulty {coinbase baseFee : Int} {fault : Fault}
    (hfault : (Write.context coinbase baseFee).faults.head? = some fault) :
    setContext state.owner coinbase baseFee state = ⟨.error (.failed fault), state, []⟩ := by
  simp only [setContext, authorize_bind_of_owner _ _ rfl, Address.native]
  simp only [Write.faults, Fault.unless] at hfault
  by_cases hcoinbase : Address.IsNative coinbase
  · by_cases hfee : 0 ≤ baseFee
    · simp only [if_pos hcoinbase, if_pos hfee, List.append_nil, List.head?_nil] at hfault
      cases hfault
    · simp only [if_pos hcoinbase, if_neg hfee, List.nil_append, List.head?_cons,
        Option.some.injEq] at hfault
      simp only [if_pos hcoinbase, ofExcept_ok, pure_bind_run, Int.not_le.mp hfee, if_true,
        ← hfault]
      rfl
  · simp only [if_neg hcoinbase, List.cons_append, List.head?_cons, Option.some.injEq] at hfault
    rw [if_neg hcoinbase, ← hfault]
    rfl

end Configuration

namespace Write

/-- What is left of a procedure that ended with a fault when its result is dropped. -/
theorem bind_pure_of_failed {α : Type} {operation : Procedure State α} {fault : Fault}
    {log : List Log.Entry} (hended : operation state = ⟨.error (.failed fault), state, log⟩) :
    ((operation >>= fun _ => pure () : Procedure State Unit) state).outcome =
        .error (.failed fault) ∧
      ((operation >>= fun _ => pure () : Procedure State Unit) state).state = state := by
  rw [bind_of_error _ (by rw [hended]), hended]
  exact ⟨rfl, rfl⟩

/-- What is left of a procedure that succeeded when its result is dropped. -/
theorem bind_pure_of_ok {α : Type} {operation : Procedure State α} {value : α} {after : State}
    (houtcome : (operation state).outcome = .ok value) (hstate : (operation state).state = after) :
    ((operation >>= fun _ => pure () : Procedure State Unit) state).outcome = .ok () ∧
      ((operation >>= fun _ => pure () : Procedure State Unit) state).state = after := by
  rw [bind_of_ok _ houtcome]
  exact ⟨rfl, hstate⟩

/-- A slot that is occupied stays as it is. -/
theorem perform_occupied (hvalid : state.Valid) {write : Write}
    (hoccupied : ¬ write.Fits state.slots) :
    (write.perform state.owner state).Refused .alreadyConfigured state := by
  cases write with
  | nativeToken address =>
      have hset : state.nativeToken ≠ none := hoccupied
      rcases Configuration.setNativeToken_cases hvalid.nativeToken state.owner address with
        ⟨hcaller, -⟩ | ⟨-, -, hrefused⟩ | ⟨-, hfree, -⟩ | ⟨-, hfree, -⟩
      · exact absurd rfl hcaller
      · exact refused_bind _ hrefused
      · exact absurd hfree hset
      · exact absurd hfree hset
  | _ => exact absurd trivial hoccupied

/-- A write with values out of range is refused for the first of them. -/
theorem perform_faulty {write : Write} {fault : Fault} (hfits : write.Fits state.slots)
    (hfault : write.faults.head? = some fault) :
    (write.perform state.owner state).outcome = .error (.failed fault) ∧
      (write.perform state.owner state).state = state := by
  cases write with
  | owner newOwner =>
      simp only [faults, Fault.unless] at hfault
      split at hfault
      · cases hfault
      · rename_i hrange
        cases hfault
        exact bind_pure_of_failed (Configuration.transferOwnership_faulty hrange)
  | reference kind value =>
      simp only [faults, Fault.unless] at hfault
      split at hfault
      · cases hfault
      · rename_i hrange
        cases hfault
        exact bind_pure_of_failed (Configuration.setClassReference_faulty kind hrange)
  | nativeToken address =>
      simp only [faults, Fault.unless] at hfault
      split at hfault
      · cases hfault
      · rename_i hrange
        cases hfault
        exact bind_pure_of_failed (Configuration.setNativeToken_faulty hfits hrange)
  | context coinbase baseFee =>
      exact bind_pure_of_failed (Configuration.setContext_faulty hfault)

/-- A write that is granted is made, and nothing else changes. -/
theorem perform_granted (hvalid : state.Valid) {write : Write}
    (hgranted : write.Granted state.slots) :
    (write.perform state.owner state).outcome = .ok () ∧
      (write.perform state.owner state).state = state.withSlots (state.slots.after write) := by
  obtain ⟨hfits, hfaultless⟩ := hgranted
  cases write with
  | owner newOwner =>
      have hrange : Address.IsNative newOwner := Fault.unless_eq_nil.mp hfaultless
      rcases Configuration.transferOwnership_cases hvalid.owner state.owner newOwner with
        ⟨hcaller, -⟩ | ⟨-, hbad, -⟩ | ⟨-, -, houtcome, hstate⟩
      · exact absurd rfl hcaller
      · exact absurd hrange hbad
      · exact bind_pure_of_ok houtcome hstate
  | reference kind value =>
      have hrange : Address.IsClassReference value := Fault.unless_eq_nil.mp hfaultless
      rcases Configuration.setClassReference_cases state state.owner kind.label value with
        ⟨hcaller, -⟩ | ⟨-, hunknown, -⟩ | ⟨-, hbad, -⟩ | ⟨-, -, named, hnamed, houtcome, hstate⟩
      · exact absurd rfl hcaller
      · rw [ClassKind.ofLabel?_label] at hunknown
        cases hunknown
      · exact absurd hrange hbad
      · rw [ClassKind.ofLabel?_label, Option.some.injEq] at hnamed
        rw [← hnamed] at houtcome hstate
        exact bind_pure_of_ok houtcome hstate
  | nativeToken address =>
      have hrange : Address.IsNative address := Fault.unless_eq_nil.mp hfaultless
      rcases Configuration.setNativeToken_cases hvalid.nativeToken state.owner address with
        ⟨hcaller, -⟩ | ⟨-, hset, -⟩ | ⟨-, -, hbad, -⟩ | ⟨-, -, -, houtcome, hstate⟩
      · exact absurd rfl hcaller
      · exact absurd hfits hset
      · exact absurd hrange hbad
      · exact bind_pure_of_ok houtcome hstate
  | context coinbase baseFee =>
      obtain ⟨hcoinbase, hfee⟩ := List.append_eq_nil_iff.mp hfaultless
      rw [Fault.unless_eq_nil] at hcoinbase hfee
      rcases Configuration.setContext_cases state state.owner coinbase baseFee with
        ⟨hcaller, -⟩ | ⟨-, hbad, -⟩ | ⟨-, -, hbad, -⟩ | ⟨-, -, -, houtcome, hstate⟩
      · exact absurd rfl hcaller
      · exact absurd hcoinbase hbad
      · omega
      · refine bind_pure_of_ok houtcome (hstate.trans ?_)
        rw [← State.contextVersion_slots]
        rfl

theorem code_of_mem_faults {write : Write} {fault : Fault} (hmem : fault ∈ write.faults) :
    ∃ code ≠ FaultCode.unauthorized, fault.code? = some code := by
  cases write with
  | owner newOwner | nativeToken address =>
      rw [Fault.eq_of_mem_unless hmem]
      exact ⟨.invalidNativeAddress, nofun, rfl⟩
  | reference kind value =>
      rw [Fault.eq_of_mem_unless hmem]
      exact ⟨.invalidClassReference, nofun, rfl⟩
  | context coinbase baseFee =>
      rcases List.mem_append.mp hmem with hcoinbase | hfee
      · rw [Fault.eq_of_mem_unless hcoinbase]
        exact ⟨.invalidNativeAddress, nofun, rfl⟩
      · rw [Fault.eq_of_mem_unless hfee]
        exact ⟨.invalidBaseFee, nofun, rfl⟩

/-- What a write by the owner comes to. -/
theorem perform_cases (hvalid : state.Valid) (write : Write) :
    let ending := write.perform state.owner state
    (write.Granted state.slots ∧ ending.outcome = .ok () ∧
      ending.state = state.withSlots (state.slots.after write)) ∨
    (¬ write.Granted state.slots ∧ ∃ code ≠ FaultCode.unauthorized, ending.Refused code state) := by
  intro ending
  by_cases hgranted : write.Granted state.slots
  · exact .inl ⟨hgranted, perform_granted hvalid hgranted⟩
  · refine .inr ⟨hgranted, ?_⟩
    by_cases hfits : write.Fits state.slots
    · obtain ⟨fault, hfault⟩ : ∃ fault, write.faults.head? = some fault :=
        Option.isSome_iff_exists.mp (List.isSome_head?.mpr fun hnone => hgranted ⟨hfits, hnone⟩)
      obtain ⟨houtcome, hstate⟩ := perform_faulty hfits hfault
      obtain ⟨code, hother, hcode⟩ := code_of_mem_faults (List.mem_of_head? hfault)
      exact ⟨code, hother, ⟨fault, houtcome, hcode⟩, hstate⟩
    · exact ⟨.alreadyConfigured, nofun, perform_occupied hvalid hfits⟩

theorem perform_guarded (caller : Int) (write : Write) :
    Guarded State.Valid Configuration.codes (write.perform caller) := by
  cases write with
  | owner newOwner =>
      exact ((Configuration.transferOwnership_guarded _ _).mono (by decide)).bind fun _ => .pure ()
  | reference kind value =>
      exact ((Configuration.setClassReference_guarded _ _ _).mono (by decide)).bind fun _ =>
        .pure ()
  | nativeToken address =>
      exact ((Configuration.setNativeToken_guarded _ _).mono (by decide)).bind fun _ => .pure ()
  | context coinbase baseFee =>
      exact ((Configuration.setContext_guarded _ _ _).mono (by decide)).bind fun _ => .pure ()

end Write

end AccountRegistry
