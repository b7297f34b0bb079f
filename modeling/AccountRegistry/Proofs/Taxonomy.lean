import AccountRegistry.Proofs.GuardedCalls
import AccountRegistry.Proofs.Nesting

/-!
# The taxonomy of errors is closed

Over a ledger that does not throw, however it replies and however deeply it calls back, no fault
escapes from a call of a created registry: it ends with a result or with a refusal under one of its
codes, whatever integers and texts it is given.  The formatters and the word encoder fail out of
range, and what reaches them is in range.

One of the codes tells more than the others.  A provisioning looks for a mapping before it asks the
ledger, so it only hears that its address is registered already if the mapping was written inside
the call.
-/

namespace AccountRegistry.Machine

variable {wiring : Wiring} {machine : Machine}

/-- An event that ends a call, and is not a ledger that throws, ends it within its codes. -/
theorem Valid.step_stopsWithin (hstandard : wiring.Standard)
    (hdeployer : Address.IsNative wiring.identity.deployer) (hvalid : machine.Valid wiring)
    {event : Event} (hreturned : ∀ fault, event ≠ .reply (.threw fault)) {call : Call}
    {outcome : Except Stop Answer} (hcall : ∀ given, call ≠ .deployIfAbsent given)
    (hended : (machine.step wiring event).effect = .ended call outcome) :
    StopsWithin call.codes outcome := by
  cases event with
  | call called =>
      obtain ⟨rfl, ⟨answer, -, rfl⟩ | ⟨stop, hstopped, rfl⟩⟩ := ended_of_step_call hended
      · exact .ok answer
      · have hbegun := (Registry.begin_guarded hstandard hdeployer called _ hvalid.state).2
        intro other hother
        cases hother
        exact hbegun stop hstopped
  | reply reply =>
      obtain ⟨plan, rest, hwaiting, rfl⟩ := ended_of_step_reply hended
      obtain ⟨hprovisions, hderived⟩ := hvalid.coherent.latest hwaiting hcall
      have hanswered : ∀ fault, reply ≠ .threw fault :=
        fun fault hthrew => hreturned fault (hthrew ▸ rfl)
      rw [Call.codes_of_provisions? hprovisions]
      intro stop hstopped
      rcases Registry.resume_refused hstandard hcall hderived hvalid.state.table hanswered hstopped
        with hwithin | ⟨hwithin, -⟩
      · exact hwithin.mono (by decide)
      · exact hwithin.mono (by decide)

/-- A provisioning that hears that its address is registered already has waited for a reply, and
the address is mapped by now. -/
theorem Valid.waiting_of_alreadyRegistered (hstandard : wiring.Standard)
    (hdeployer : Address.IsNative wiring.identity.deployer) (hvalid : machine.Valid wiring)
    {event : Event} (hreturned : ∀ fault, event ≠ .reply (.threw fault)) {call : Call} {evm : Int}
    {stop : Stop} (hprovisions : call.provisions? = some evm)
    (hended : (machine.step wiring event).effect = .ended call (.error stop))
    (hcode : stop.code? = some .alreadyRegistered) :
    ∃ plan rest, machine.waiting = ⟨call, plan⟩ :: rest ∧ plan.evmAddress = evm ∧
      machine.state.table.find? evm ≠ none := by
  cases event with
  | call called =>
      -- before the ledger is asked this code does not occur
      obtain ⟨rfl, ⟨_, -, hanswer⟩ | ⟨early, hstopped, hsame⟩⟩ := ended_of_step_call hended
      · cases hanswer
      · cases hsame
        have hwithin := (Registry.begin_provisions_guarded hstandard hdeployer hprovisions _
          hvalid.state).2 stop hstopped
        exact absurd (hwithin.code?_mem hcode) (by decide)
  | reply reply =>
      obtain ⟨plan, rest, hwaiting, hstopped⟩ := ended_of_step_reply hended
      have hcall := Call.ne_deployIfAbsent_of_provisions? hprovisions
      have hanswered : ∀ fault, reply ≠ .threw fault :=
        fun fault hthrew => hreturned fault (hthrew ▸ rfl)
      obtain ⟨hplanned, hderived⟩ := hvalid.coherent.latest hwaiting hcall
      have hevm : plan.evmAddress = evm := Option.some.inj (hplanned.symm.trans hprovisions)
      refine ⟨plan, rest, hwaiting, hevm, ?_⟩
      rcases Registry.resume_refused hstandard hcall hderived hvalid.state.table hanswered hstopped
        with hwithin | ⟨-, existing, hfound, -⟩
      · exact absurd (hwithin.code?_mem hcode) (by decide)
      · rw [← hevm, hfound]
        nofun

/-- In every run of a created registry over a ledger that does not throw, each call but a bare
deployment ends with a result or is refused under one of its codes; and where a provisioning is
refused because its address is registered already, the address had no mapping when the call asked
the ledger, and what wrote one happened inside the call. -/
theorem errors_are_refusals {hash : Hash} {setup : Setup} {launched : Launched}
    (hcreated : Launched.create hash setup = .ok launched) (events : List Event)
    (hreturned : ∀ fault, Event.reply (.threw fault) ∉ events) :
    let wiring := launched.wiring
    let start := idle launched.state
    (∀ call outcome, Effect.ended call outcome ∈ start.effects wiring events →
      (∀ plan, call ≠ .deployIfAbsent plan) → StopsWithin call.codes outcome) ∧
    (∀ before event after call evm stop, events = before ++ event :: after →
      call.provisions? = some evm →
      ((start.run wiring before).step wiring event).effect = .ended call (.error stop) →
      stop.code? = some .alreadyRegistered →
      ∃ earlier inner plan rest, before = earlier ++ .call call :: inner ∧
        Entered wiring start earlier inner call plan rest ∧
        (start.run wiring earlier).state.table.find? evm = none ∧
        (start.run wiring before).state.table.find? evm ≠ none) := by
  intro wiring start
  have hstandard : wiring.Standard := Launched.create_standard hcreated
  have hdeployer : Address.IsNative wiring.identity.deployer := Launched.create_deployer hcreated
  have hreached (before : List Event) : (start.run wiring before).Valid wiring :=
    .reached hcreated before
  have hquiet {before after : List Event} {event : Event}
      (hsplit : events = before ++ event :: after) (fault : Fault) :
      event ≠ .reply (.threw fault) := by
    rintro rfl
    exact hreturned fault (hsplit ▸ List.mem_append_right _ List.mem_cons_self)
  refine ⟨?_, ?_⟩
  · intro call outcome hmem hcall
    obtain ⟨before, event, after, hsplit, hended⟩ := mem_effects.mp hmem
    exact (hreached before).step_stopsWithin hstandard hdeployer (hquiet hsplit) hcall hended.symm
  · intro before event after call evm stop hsplit hprovisions hended hcode
    obtain ⟨plan, rest, hwaiting, hevm, hmapped⟩ := (hreached before).waiting_of_alreadyRegistered
      hstandard hdeployer (hquiet hsplit) hprovisions hended hcode
    obtain ⟨earlier, inner, hcut, hentered⟩ :
        ∃ earlier inner, before = earlier ++ .call call :: inner ∧
          Entered wiring start earlier inner call plan rest :=
      entered_of_waiting rfl (hwaiting.trans (List.nil_append _).symm)
    refine ⟨earlier, inner, plan, rest, hcut, hentered, ?_, hmapped⟩
    -- the plan was made for a table that admitted its mapping
    obtain ⟨-, -, -, hadmits⟩ := Registry.begin_asks_derived hstandard
      (Call.ne_deployIfAbsent_of_provisions? hprovisions) hentered.asked
    rw [← hevm]
    exact hadmits.unmapped

/-- While an address is resolved, the proxy reference is overwritten and the address is resolved
under the new one.  The outer call is then told that its account was deployed as planned, and is
refused because of the mapping that the inner call wrote. -/
theorem errors_are_refusals_when_overtaken :
    let wiring := (Launched.small .toClassReference).wiring
    let start := idle (Launched.small .toClassReference).state
    let before : List Event :=
      [.call (.setClassReference 2 "proxy" 9), .call (.resolve 7),
        .call (.setClassReference 2 "proxy" 10), .call (.resolve 7), .reply (.deployed 10)]
    let last : Event := .reply (.deployed 9)
    ∃ call stop, ((start.run wiring before).step wiring last).effect = .ended call (.error stop) ∧
      call.provisions? = some 7 ∧ stop.code? = some .alreadyRegistered ∧
      stop.Within call.codes ∧
      ∃ earlier inner plan rest, before = earlier ++ .call call :: inner ∧
        Entered wiring start earlier inner call plan rest := by
  intro wiring start before last
  have hreturned : ∀ fault, Event.reply (.threw fault) ∉ before ++ [last] := by
    simp [before, last]
  obtain ⟨hclosed, hinside⟩ :=
    errors_are_refusals (Launched.create_small .toClassReference) (before ++ [last]) hreturned
  have hcomputed : ((start.run wiring before).step wiring last).effect.stop?.bind Stop.code? =
      some .alreadyRegistered := by decide +kernel
  obtain ⟨stop, hstop, hcode⟩ := Option.bind_eq_some_iff.mp hcomputed
  obtain ⟨call, hended⟩ := Effect.stop?_eq_some.mp hstop
  have hcalls : (start.run wiring before).waiting.map (·.call.provisions?) = [some 7] := by
    decide +kernel
  obtain ⟨plan, rest, hwaiting, -⟩ := ended_of_step_reply hended
  rw [hwaiting] at hcalls
  have hprovisions : call.provisions? = some 7 := (List.cons.inj hcalls).1
  obtain ⟨earlier, inner, plan, rest, hcut, hentered, -⟩ :=
    hinside before last [] call 7 stop rfl hprovisions hended hcode
  refine ⟨call, stop, hended, hprovisions, hcode, ?_, earlier, inner, plan, rest, hcut, hentered⟩
  refine hclosed call (.error stop) ?_ (Call.ne_deployIfAbsent_of_provisions? hprovisions) stop rfl
  exact mem_effects.mpr ⟨before, last, [], rfl, hended.symm⟩

end AccountRegistry.Machine
