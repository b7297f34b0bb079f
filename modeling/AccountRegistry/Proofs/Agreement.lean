import AccountRegistry.Proofs.Machine

/-!
# Agreement and permanence

Mappings are written after the ledger has replied, so that between the first check of an address
and the write any other call may run.  The first write wins nevertheless:

* `first_mapping_is_final`: in every run over any ledger a mapping record stays as it is, and all
  calls that return the native address of an EVM address, whenever they began and however deeply
  they were nested, return the one that is mapped.

The reason is that a call never returns an address that the table does not hold at that moment
(`native?_of_resolved`), and that the table is only ever extended.
-/

namespace AccountRegistry

/-- The EVM address and the native address that an effect ties together: what `resolve`, the two
provisionings, `register` and `lookup` return when they succeed. -/
def Effect.resolved? : Effect → Option (Int × Int)
  | .ended call (.ok (.integer native)) => call.target?.map fun evm => (evm, native)
  | _ => none

theorem Effect.resolved?_eq_some {effect : Effect} {evm native : Int} :
    effect.resolved? = some (evm, native) ↔
      ∃ call, effect = .ended call (.ok (.integer native)) ∧ call.target? = some evm := by
  constructor
  · intro hresolved
    unfold resolved? at hresolved
    split at hresolved
    · rename_i call value
      obtain ⟨target, htarget, hpair⟩ := Option.map_eq_some_iff.mp hresolved
      cases hpair
      exact ⟨call, rfl, htarget⟩
    · cases hresolved
  · rintro ⟨call, rfl, htarget⟩
    simp [resolved?, htarget]

namespace Machine

variable {wiring : Wiring} {machine : Machine} {evm native : Int}

/-- Every pair of an EVM address and the native address that a run returned for it. -/
def results (wiring : Wiring) (machine : Machine) (events : List Event) : List (Int × Int) :=
  (effects wiring machine events).filterMap Effect.resolved?

/-- What an event resolves is what the table holds after it. -/
theorem native?_of_resolved (hstandard : wiring.Standard) (hcoherent : machine.Coherent wiring)
    {event : Event}
    (hresolved : (machine.step wiring event).effect.resolved? = some (evm, native)) :
    (machine.step wiring event).machine.state.table.native? evm = some native := by
  obtain ⟨call, hended, htarget⟩ := Effect.resolved?_eq_some.mp hresolved
  exact native?_of_step hstandard hcoherent htarget hended

/-- What a run returned anywhere is what the table holds at its end. -/
theorem native?_of_mem_results (hstandard : wiring.Standard) (hcoherent : machine.Coherent wiring)
    {events : List Event} (hmem : (evm, native) ∈ machine.results wiring events) :
    (machine.run wiring events).state.table.native? evm = some native := by
  obtain ⟨effect, heffect, hresolved⟩ := List.mem_filterMap.mp hmem
  obtain ⟨before, event, after, rfl, rfl⟩ := mem_effects.mp heffect
  have hreached := native?_of_resolved hstandard (hcoherent.run hstandard before) hresolved
  rw [run_append, run_cons]
  exact (run_extends hstandard _ after).native? hreached

/-- A mapped address is computed from the table, whatever the class references are by now. -/
theorem step_compute_of_native? (wiring : Wiring)
    (hmapped : machine.state.table.native? evm = some native) :
    (machine.step wiring (.call (.compute evm))).effect =
      .ended (.compute evm) (.ok (.integer native)) := by
  have hended : (Registry.begin wiring (.compute evm) machine.state).outcome =
      .ok (.finished (.integer native)) := by
    simp [Registry.begin, Registry.finishing, Addresses.compute_of_native? _ hmapped,
      Procedure.outcome_bind]
  simp only [step, hended]

/-- Over any ledger and through any nesting of calls: a mapping record is the same in every later
state; any two results for an EVM address are the same native address; and wherever the address
is mapped, it computes to the native address of its record, which is also the one that every
result of the run names. -/
theorem first_mapping_is_final {hash : Hash} {setup : Setup} {launched : Launched}
    (hcreated : Launched.create hash setup = .ok launched) (before after : List Event) :
    let wiring := launched.wiring
    let reached := (idle launched.state).run wiring before
    let later := (idle launched.state).run wiring (before ++ after)
    let results := (idle launched.state).results wiring (before ++ after)
    (∀ evm mapping, reached.state.table.find? evm = some mapping →
      later.state.table.find? evm = some mapping) ∧
    (∀ evm first second, (evm, first) ∈ results → (evm, second) ∈ results → first = second) ∧
    (∀ evm mapping, reached.state.table.find? evm = some mapping →
      (reached.step wiring (.call (.compute evm))).effect =
        .ended (.compute evm) (.ok (.integer mapping.nativeAddress)) ∧
      ∀ result, (evm, result) ∈ results → result = mapping.nativeAddress) := by
  intro wiring reached later results
  have hstandard : wiring.Standard := Launched.create_standard hcreated
  have hcoherent : (idle launched.state).Coherent wiring := .idle wiring launched.state
  -- both parts follow from the last table: it extends every earlier one and holds every result
  have hlater : later = reached.run wiring after := run_append wiring _ before after
  have hextends : reached.state.table.Extends later.state.table := by
    rw [hlater]
    exact run_extends hstandard reached after
  have hheld : ∀ evm native, (evm, native) ∈ results →
      later.state.table.native? evm = some native :=
    fun _ _ hmem => native?_of_mem_results hstandard hcoherent hmem
  refine ⟨hextends, ?_, ?_⟩
  · intro evm first second hfirst hsecond
    have hsame := (hheld evm first hfirst).symm.trans (hheld evm second hsecond)
    exact Option.some.inj hsame
  · intro evm mapping hfound
    have hmapped := AddressTable.native?_of_find? hfound
    refine ⟨step_compute_of_native? wiring hmapped, ?_⟩
    intro result hresult
    have hsame := (hheld evm result hresult).symm.trans (hextends.native? hmapped)
    exact Option.some.inj hsame

/-- An address is resolved as `eoa`, and while the ledger works on that it is provisioned as
`contract-account`; the outer call then hears that the account exists.  The inner record stays and
all three results name it. -/
theorem first_mapping_is_final_when_nested :
    let before : List Event :=
      [.call (.setClassReference 2 "proxy" 9), .call (.resolve 7),
        .call (.provisionContract 7 "0x00"), .reply (.deployed 5)]
    let after : List Event :=
      [.reply (.refused (.refusal .alreadyDeployed [])), .call (.lookup 7)]
    results (Launched.small fun _ => 5).wiring (idle (Launched.small fun _ => 5).state)
      (before ++ after) = [(7, 5), (7, 5), (7, 5)] ∧
    (run (Launched.small fun _ => 5).wiring (idle (Launched.small fun _ => 5).state)
      (before ++ after)).state.table.find? 7 = some ⟨7, 5, "contract-account", 9⟩ := by
  intro before after
  obtain ⟨hkept, -, -⟩ := first_mapping_is_final (Launched.create_small fun _ => 5) before after
  exact ⟨by decide, hkept 7 ⟨7, 5, "contract-account", 9⟩ (by decide)⟩

end Machine

end AccountRegistry
