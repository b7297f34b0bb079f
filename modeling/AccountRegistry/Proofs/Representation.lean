import AccountRegistry.Proofs.AddressTable
import AccountRegistry.Proofs.Machine

/-!
# The address table of a running registry

The two sides of the address table have two writers, and the check for collisions that stands
before a deployment may be outdated when the mapping is written.  They stay inverse to each other
all the same, because a mapping is checked once more in the step that writes it.

* `Writes.range`: what an event writes has both of its addresses in range.
* `Sound`, with `Sound.step` and `Sound.run`: the invariant, and that every run keeps it.
* `table_is_bijective`: what the invariant says about every reachable state.

The hash is never assumed to be free of collisions; it may be constant.
-/

namespace AccountRegistry.Machine

variable {wiring : Wiring} {machine : Machine}

/-! ## The invariant -/

/-- The addresses of a mapping are in range when it is written. -/
theorem Writes.range (hcoherent : machine.Coherent wiring) {event : Event} {mapping : Mapping}
    (hwrites : Writes wiring machine event mapping) :
    Address.IsEvm mapping.evmAddress ∧ Address.IsNative mapping.nativeAddress := by
  cases hwrites with
  | provisioned hwaiting hcall hconfirms =>
      have hderived := (hcoherent.latest hwaiting hcall).2
      exact ⟨hderived.evm, hderived.native_isNative⟩
  | registered hderived =>
      obtain ⟨hevm, _, -, hnative⟩ := Provisioning.derive_eq_ok.mp hderived
      exact ⟨hevm, Derivation.accountAddress_isNative hnative⟩

/-- A machine whose table is a valid pair of maps and whose waiting calls hold plans that keep it
valid. -/
structure Sound (wiring : Wiring) (machine : Machine) : Prop where
  coherent : machine.Coherent wiring
  valid : machine.state.table.Valid

namespace Sound

theorem idle (wiring : Wiring) {state : State} (hempty : state.table = .empty) :
    (Machine.idle state).Sound wiring where
  coherent := .idle wiring state
  valid := by
    show state.table.Valid
    rw [hempty]
    exact .empty

theorem step (hstandard : wiring.Standard) (hsound : machine.Sound wiring) (event : Event) :
    (machine.step wiring event).machine.Sound wiring where
  coherent := hsound.coherent.step hstandard event
  valid := by
    rcases step_table hstandard machine event with hkept | ⟨mapping, hwrites, hadmits, hwritten⟩
    · rw [hkept]
      exact hsound.valid
    · -- the table admits the mapping in the very step that writes it, however old the plan is
      rw [hwritten]
      obtain ⟨hevm, hnative⟩ := hwrites.range hsound.coherent
      exact hsound.valid.add hadmits hevm hnative

theorem run (hstandard : wiring.Standard) (hsound : machine.Sound wiring) (events : List Event) :
    (machine.run wiring events).Sound wiring :=
  run_induction (fun _ event hsound => hsound.step hstandard event) hsound events

end Sound

/-! ## Reachable states -/

theorem step_lookup (wiring : Wiring) (machine : Machine) (evm : Int) :
    (machine.step wiring (.call (.lookup evm))).effect =
      .ended (.lookup evm) (.ok (.ofInteger? (machine.state.table.native? evm))) := rfl

theorem step_evmOf (wiring : Wiring) (machine : Machine) (native : Int) :
    (machine.step wiring (.call (.evmOf native))).effect =
      .ended (.evmOf native) (.ok (.ofInteger? (machine.state.table.evm? native))) := rfl

/-- In every reachable state, over any ledger, any nesting of calls and any hash: the two maps are
inverse to each other; each record stands under its own EVM address and has both addresses in
range; no two EVM addresses share a native address; looking a mapped address up and back gives the
address again; and the size counts the distinct native addresses. -/
theorem table_is_bijective {hash : Hash} {setup : Setup} {launched : Launched}
    (hcreated : Launched.create hash setup = .ok launched) (events : List Event) :
    let wiring := launched.wiring
    let reached := (idle launched.state).run wiring events
    let table := reached.state.table
    (∀ evm native, table.native? evm = some native ↔ table.evm? native = some evm) ∧
    (∀ evm mapping, table.find? evm = some mapping →
      mapping.evmAddress = evm ∧ (0 ≤ evm ∧ evm < Int.pow 2 160) ∧
        (0 ≤ mapping.nativeAddress ∧ mapping.nativeAddress < Int.pow 2 251 - 256)) ∧
    (∀ mapping ∈ table.mappings, table.find? mapping.evmAddress = some mapping) ∧
    (∀ first second native, table.native? first = some native →
      table.native? second = some native → first = second) ∧
    (∀ evm mapping, table.find? evm = some mapping → ∃ native,
      (reached.step wiring (.call (.lookup evm))).effect =
        .ended (.lookup evm) (.ok (.integer native)) ∧
      (reached.step wiring (.call (.evmOf native))).effect =
        .ended (.evmOf native) (.ok (.integer evm))) ∧
    table.size = (table.mappings.map Mapping.nativeAddress).toFinset.card := by
  intro wiring reached table
  have hstandard : wiring.Standard := Launched.create_standard hcreated
  have hinitial : (idle launched.state).Sound wiring :=
    .idle wiring (Launched.create_table hcreated)
  have hvalid : table.Valid := (hinitial.run hstandard events).valid
  refine ⟨hvalid.inverse, ?_, ?_, ?_, ?_, hvalid.size_eq_card⟩
  · intro evm mapping hfound
    have hkey := AddressTable.evmAddress_of_find? hfound
    have hmem := AddressTable.mem_of_find? hfound
    have hevm := hvalid.evm_range mapping hmem
    rw [hkey] at hevm
    exact ⟨hkey, Address.isEvm_iff.mp hevm,
      Address.isNative_iff.mp (hvalid.native_range mapping hmem)⟩
  · intro mapping hmem
    exact hvalid.find?_of_mem hmem
  · intro first second native hfirst hsecond
    exact hvalid.evm_injective hfirst hsecond
  · intro evm mapping hfound
    have hmapped : table.native? evm = some mapping.nativeAddress :=
      AddressTable.native?_of_find? hfound
    have hbound := (hvalid.inverse _ _).mp hmapped
    refine ⟨mapping.nativeAddress, ?_, ?_⟩
    · rw [step_lookup]
      show Effect.ended _ (.ok (.ofInteger? (table.native? evm))) = _
      rw [hmapped]
      rfl
    · rw [step_evmOf]
      show Effect.ended _ (.ok (.ofInteger? (table.evm? mapping.nativeAddress))) = _
      rw [hbound]
      rfl

/-- Under a constant hash every account has the same address.  While one address is provisioned,
another one takes that account; the outer call then finds the collision, although it had found
none before it asked the ledger. -/
theorem table_is_bijective_under_constant_hash :
    let events : List Event :=
      [.call (.setClassReference 2 "proxy" 9), .call (.provisionEoa 7),
        .call (.provisionEoa 8), .reply (.deployed 5), .reply (.deployed 5)]
    let table := (run (Launched.small fun _ => 5).wiring
      (idle (Launched.small fun _ => 5).state) events).state.table
    table.mappings = [⟨8, 5, "eoa", 9⟩] ∧ table.native? 7 = none ∧
      (table.native? 8 = some 5 ↔ table.evm? 5 = some 8) := by
  intro events table
  obtain ⟨hinverse, -⟩ := table_is_bijective (Launched.create_small fun _ => 5) events
  exact ⟨by decide, by decide, hinverse 8 5⟩

end AccountRegistry.Machine
