import AccountRegistry.Proofs.Agreement
import AccountRegistry.Proofs.Racing
import AccountRegistry.Proofs.Resolution

/-!
# Predicted addresses

The native address of an unmapped EVM address can be computed before anything is deployed.  The
answer comes from the deriver; what is deployed later comes from plans, from the replies of the
ledger and from the callers of `register`.  All of them agree as long as the proxy reference stays:

* `Steady.located`: between calls that are derived from one proxy reference, whatever event ends a
  call that locates the address, it ends it with the address derived from that reference.
* `located_of_mapped`: once the address is mapped, the reference has no part in it any more.
* `prediction_binds`: so a prediction is the only answer in every continuation that keeps the proxy
  reference, and a mapping made in it makes the answer permanent.
-/

namespace AccountRegistry

/-- The EVM address whose native account a call locates: it provisions or registers the account, or
works out where the account is or would be. -/
def Call.locates? : Call → Option Int
  | .register _ evm _ => some evm
  | .derive evm => some evm
  | .compute evm => some evm
  | call => call.provisions?

/-- A call that locates an account leaves it mapped when it succeeds, or only works out where it
is. -/
theorem Call.locates?_cases {call : Call} {evm : Int} (hlocates : call.locates? = some evm) :
    call.target? = some evm ∨ call = .derive evm ∨ call = .compute evm := by
  cases call with
  | derive target => cases hlocates; exact .inr (.inl rfl)
  | compute target => cases hlocates; exact .inr (.inr rfl)
  | lookup target => cases hlocates
  | _ => exact .inl hlocates

namespace Registry

variable {wiring : Wiring} {state : State} {evm : Int}

theorem ofStart_integer {start : Procedure State Addresses.Start} {answer : Answer}
    (hended : (ofStart start state).outcome = .ok (.finished answer)) :
    ∃ native, answer = .integer native := by
  obtain ⟨started, -, hended⟩ := Procedure.outcome_bind_eq_ok.mp hended
  cases started with
  | mapped native => cases hended; exact ⟨native, rfl⟩
  | planned plan => cases hended

/-- A call that locates an account and ends at once names a native address. -/
theorem begin_located {call : Call} (hlocates : call.locates? = some evm) {answer : Answer}
    (hended : (begin wiring call state).outcome = .ok (.finished answer)) :
    ∃ native, answer = .integer native := by
  cases call with
  | resolve | provisionEoa | provisionContract => exact ofStart_integer hended
  | register | compute | derive =>
      obtain ⟨native, -, hanswer⟩ := finishing_eq_ok hended
      cases hanswer
      exact ⟨native, rfl⟩
  | _ => cases hlocates

/-- What is worked out for an address is its derivation, or the native address that it is mapped
to. -/
theorem begin_worked {call : Call} {native : Int}
    (hworked : call = .derive evm ∨ call = .compute evm)
    (hended : (begin wiring call state).outcome = .ok (.finished (.integer native))) :
    wiring.provisioner.derive state.references evm = .ok native ∨
      (call = .compute evm ∧ state.table.native? evm = some native) := by
  rcases hworked with rfl | rfl
  · obtain ⟨value, hvalue, hanswer⟩ := finishing_eq_ok hended
    cases hanswer
    rw [Procedure.outcome_ofStop] at hvalue
    exact .inl hvalue
  · obtain ⟨value, hvalue, hanswer⟩ := finishing_eq_ok hended
    cases hanswer
    unfold Addresses.compute at hvalue
    rw [Procedure.get_bind] at hvalue
    cases hmapped : state.table.native? evm with
    | some found =>
        rw [hmapped] at hvalue
        cases hvalue
        exact .inr ⟨rfl, rfl⟩
    | none =>
        rw [hmapped] at hvalue
        dsimp only at hvalue
        rw [Procedure.outcome_ofStop] at hvalue
        exact .inl hvalue

end Registry

namespace Machine

variable {wiring : Wiring} {machine : Machine} {reference evm native : Int}

/-- An event that ends a call that locates an account names a native address. -/
theorem integer_of_located {event : Event} {call : Call} (hlocates : call.locates? = some evm)
    {answer : Answer} (hended : (machine.step wiring event).effect = .ended call (.ok answer)) :
    ∃ native, answer = .integer native := by
  cases event with
  | call called =>
      obtain ⟨rfl, ⟨given, hbegun, hanswer⟩ | ⟨stop, -, hstop⟩⟩ := ended_of_step_call hended
      · cases hanswer
        exact Registry.begin_located hlocates hbegun
      · cases hstop
  | reply reply =>
      obtain ⟨plan, rest, -, hresumed⟩ := ended_of_step_reply hended
      have hcall : ∀ given, call ≠ .deployIfAbsent given := by
        rintro given rfl
        cases hlocates
      rw [Registry.resume_of_ne hcall] at hresumed
      obtain ⟨native, -, hanswer⟩ := Procedure.outcome_bind_eq_ok.mp hresumed
      cases hanswer
      exact ⟨native, rfl⟩

/-- An event that ends a call that works out where an account is: derived from the references of
the moment, or the native address that is mapped. -/
theorem worked_of_step (hcoherent : machine.Coherent wiring) {event : Event} {call : Call}
    (hworked : call = .derive evm ∨ call = .compute evm)
    (hended : (machine.step wiring event).effect = .ended call (.ok (.integer native))) :
    wiring.provisioner.derive machine.state.references evm = .ok native ∨
      (call = .compute evm ∧ machine.state.table.native? evm = some native) := by
  cases event with
  | call called =>
      obtain ⟨rfl, ⟨given, hbegun, hanswer⟩ | ⟨stop, -, hstop⟩⟩ := ended_of_step_call hended
      · cases hanswer
        exact Registry.begin_worked hworked hbegun
      · cases hstop
  | reply reply =>
      -- such a call never waits
      obtain ⟨plan, rest, hwaiting, -⟩ := ended_of_step_reply hended
      have hcall : ∀ given, call ≠ .deployIfAbsent given := by
        rintro given rfl
        simp at hworked
      obtain ⟨hprovisions, -⟩ := hcoherent.latest hwaiting hcall
      rcases hworked with rfl | rfl <;> cases hprovisions

/-! ## Between calls -/

/-- For an address that is not mapped, a steady run begins at any moment. -/
theorem Steady.of_unmapped (hunmapped : machine.state.table.find? evm = none) :
    machine.Steady wiring reference evm machine.waiting where
  waiting := ⟨[], rfl, fun _ hmem => absurd hmem List.not_mem_nil⟩
  mapped _ hfound := absurd (hunmapped.symm.trans hfound) nofun

/-- Between calls a reply has nobody to go to, so that no event leads out of the frame. -/
theorem Steady.step_between (hstandard : wiring.Standard)
    (hsteady : machine.Steady wiring reference evm [])
    (hreference : machine.state.references.reference? .proxy = some reference) (event : Event) :
    (machine.step wiring event).machine.Steady wiring reference evm [] := by
  by_cases hlost : (∃ reply, event = .reply reply) ∧ machine.waiting = []
  · obtain ⟨⟨reply, rfl⟩, hidle⟩ := hlost
    rw [step_reply_nil reply hidle]
    exact hsteady
  · exact hsteady.step hstandard hreference fun reply hreply hidle => hlost ⟨⟨reply, hreply⟩, hidle⟩

theorem Steady.run_between (hstandard : wiring.Standard)
    (hsteady : machine.Steady wiring reference evm []) {events : List Event}
    (hreference : ∀ part rest, events = part ++ rest →
      (machine.run wiring part).state.references.reference? .proxy = some reference) :
    (machine.run wiring events).Steady wiring reference evm [] := by
  induction events generalizing machine with
  | nil => exact hsteady
  | cons event rest ih =>
      refine ih (hsteady.step_between hstandard (hreference [] _ rfl) event) ?_
      rintro part others rfl
      exact hreference (event :: part) others rfl

/-- Whatever ends a call that locates an account ends it with the address that is derived from the
one proxy reference. -/
theorem Steady.located (hstandard : wiring.Standard) (hcoherent : machine.Coherent wiring)
    (hsteady : machine.Steady wiring reference evm [])
    (hreference : machine.state.references.reference? .proxy = some reference) {event : Event}
    {call : Call} (hlocates : call.locates? = some evm)
    (hended : (machine.step wiring event).effect = .ended call (.ok (.integer native))) :
    Derivation.accountAddress wiring.hash reference evm wiring.identity.deployer = .ok native := by
  rcases Call.locates?_cases hlocates with htarget | hworked
  · -- the call leaves the address mapped, and every mapping is derived from the reference
    have hheld := native?_of_step hstandard hcoherent htarget hended
    obtain ⟨mapping, hfound, rfl⟩ := AddressTable.native?_eq_some_iff.mp hheld
    exact (hsteady.step_between hstandard hreference event).mapped mapping hfound
  · rcases worked_of_step hcoherent hworked hended with hderived | ⟨-, hmapped⟩
    · exact Wiring.accountAddress_of_derive hstandard hreference hderived
    · obtain ⟨mapping, hfound, rfl⟩ := AddressTable.native?_eq_some_iff.mp hmapped
      exact hsteady.mapped mapping hfound

theorem Steady.located_run (hstandard : wiring.Standard) (hcoherent : machine.Coherent wiring)
    (hsteady : machine.Steady wiring reference evm []) {events : List Event}
    (hreference : ∀ part rest, events = part ++ rest →
      (machine.run wiring part).state.references.reference? .proxy = some reference)
    {call : Call} (hlocates : call.locates? = some evm) {answer : Answer}
    (hmem : .ended call (.ok answer) ∈ machine.effects wiring events) :
    ∃ native, answer = .integer native ∧
      Derivation.accountAddress wiring.hash reference evm wiring.identity.deployer =
        .ok native := by
  obtain ⟨part, event, rest, rfl, hended⟩ := mem_effects.mp hmem
  obtain ⟨native, rfl⟩ := integer_of_located hlocates hended.symm
  have hreached : (machine.run wiring part).Steady wiring reference evm [] := by
    refine hsteady.run_between hstandard ?_
    rintro earlier others rfl
    exact hreference earlier (others ++ event :: rest) (List.append_assoc ..)
  exact ⟨native, rfl, hreached.located hstandard (hcoherent.run hstandard part)
    (hreference part _ rfl) hlocates hended.symm⟩

/-! ## Mapped addresses -/

/-- Of a mapped address, whatever ends a call that locates it names the native address that is
mapped, the derivation under another reference apart. -/
theorem located_of_mapped (hstandard : wiring.Standard) (hcoherent : machine.Coherent wiring)
    {mapped : Int} (hmapped : machine.state.table.native? evm = some mapped) {event : Event}
    {call : Call} (hlocates : call.locates? = some evm) (hderive : call ≠ .derive evm)
    (hended : (machine.step wiring event).effect = .ended call (.ok (.integer native))) :
    native = mapped := by
  rcases Call.locates?_cases hlocates with htarget | rfl | rfl
  · have hheld := native?_of_step hstandard hcoherent htarget hended
    have hkept := (step_extends hstandard machine event).native? hmapped
    exact Option.some.inj (hheld.symm.trans hkept)
  · exact absurd rfl hderive
  · cases event with
    | call called =>
        obtain ⟨rfl, -⟩ := ended_of_step_call hended
        rw [step_compute_of_native? wiring hmapped] at hended
        cases hended
        rfl
    | reply reply =>
        obtain ⟨plan, rest, hwaiting, -⟩ := ended_of_step_reply hended
        cases (hcoherent.latest hwaiting nofun).1

theorem located_run_of_mapped (hstandard : wiring.Standard) (hcoherent : machine.Coherent wiring)
    {mapped : Int} (hmapped : machine.state.table.native? evm = some mapped) {events : List Event}
    {call : Call} (hlocates : call.locates? = some evm) (hderive : call ≠ .derive evm)
    {answer : Answer} (hmem : .ended call (.ok answer) ∈ machine.effects wiring events) :
    answer = .integer mapped := by
  obtain ⟨part, event, rest, -, hended⟩ := mem_effects.mp hmem
  obtain ⟨native, rfl⟩ := integer_of_located hlocates hended.symm
  have hkept := (run_extends hstandard machine part).native? hmapped
  rw [located_of_mapped hstandard (hcoherent.run hstandard part) hkept hlocates hderive
    hended.symm]

/-- A provisioning of a mapped address, or a computation of its native address, ends at once with
the native address that is mapped. -/
theorem step_of_mapped (hvalid : machine.state.table.Valid) {mapping : Mapping}
    (hmapped : machine.state.table.find? evm = some mapping) {call : Call}
    (hcall : call.provisions? = some evm ∨ call = .compute evm) :
    (machine.step wiring (.call call)).effect =
      .ended call (.ok (.integer mapping.nativeAddress)) := by
  have hended : (Registry.begin wiring call machine.state).outcome =
      .ok (.finished (.integer mapping.nativeAddress)) :=
    (Registry.begin_of_mapped hvalid hmapped hcall).1
  simp only [step, hended]

/-! ## Predictions -/

/-- The native address of an unmapped EVM address was computed while no call waited, and then the
run goes on with events of any kind that leave the proxy reference as it is.  Every call in it that
locates the EVM address and succeeds returns the computed address.  If the EVM address is mapped at
any moment of it, this remains so whatever happens later, an upgrade of the proxy reference
included: only a derivation may still find another address, and every provisioning and every further
computation returns the computed one at once. -/
theorem prediction_binds {hash : Hash} {setup : Setup} {launched : Launched}
    (hcreated : Launched.create hash setup = .ok launched) (before events : List Event)
    (evm native : Int) :
    let wiring := launched.wiring
    let predicted := (idle launched.state).run wiring before
    predicted.waiting = [] → predicted.state.table.find? evm = none →
    (predicted.step wiring (.call (.compute evm))).effect =
      .ended (.compute evm) (.ok (.integer native)) →
    (∀ part rest, events = part ++ rest →
      (predicted.run wiring part).state.references.reference? .proxy =
        predicted.state.references.reference? .proxy) →
    (∀ call answer, call.locates? = some evm →
      .ended call (.ok answer) ∈ predicted.effects wiring events → answer = .integer native) ∧
    ∀ part rest, events = part ++ rest →
      (predicted.run wiring part).state.table.find? evm ≠ none →
      ∀ later,
        (∀ call answer, call.locates? = some evm → call ≠ .derive evm →
          .ended call (.ok answer) ∈ (predicted.run wiring part).effects wiring later →
          answer = .integer native) ∧
        ∀ call, call.provisions? = some evm ∨ call = .compute evm →
          (((predicted.run wiring part).run wiring later).step wiring (.call call)).effect =
            .ended call (.ok (.integer native)) := by
  intro wiring predicted hidle hunmapped hpredicted hstayed
  have hstandard : wiring.Standard := Launched.create_standard hcreated
  have hdeployer : Address.IsNative wiring.identity.deployer := Launched.create_deployer hcreated
  have hvalid : predicted.Valid wiring := .reached hcreated before
  -- the prediction is the derivation from the proxy reference of that moment
  have hderived : wiring.provisioner.derive predicted.state.references evm = .ok native := by
    rcases worked_of_step hvalid.coherent (.inr rfl) hpredicted with hderived | ⟨-, hmapped⟩
    · exact hderived
    · rw [AddressTable.native?_eq_none_iff.mpr hunmapped] at hmapped
      cases hmapped
  rw [hstandard] at hderived
  obtain ⟨-, reference, hreference, hnative⟩ := Provisioning.derive_eq_ok.mp hderived
  have hcurrent : ∀ part rest, events = part ++ rest →
      (predicted.run wiring part).state.references.reference? .proxy = some reference :=
    fun part rest hsplit => (hstayed part rest hsplit).trans hreference
  have hsteady : predicted.Steady wiring reference evm [] := hidle ▸ .of_unmapped hunmapped
  refine ⟨fun call answer hlocates hmem => ?_, fun part rest hsplit hmapped later => ?_⟩
  · obtain ⟨found, rfl, hfound⟩ :=
      hsteady.located_run hstandard hvalid.coherent hcurrent hlocates hmem
    rw [Except.ok.inj (hfound.symm.trans hnative)]
  · obtain ⟨mapping, hfound⟩ := Option.ne_none_iff_exists'.mp hmapped
    have hreached : (predicted.run wiring part).Valid wiring :=
      hvalid.run hstandard hdeployer part
    have hmade : (predicted.run wiring part).Steady wiring reference evm [] := by
      refine hsteady.run_between hstandard ?_
      rintro earlier others rfl
      exact hcurrent earlier (others ++ rest) (hsplit.trans (List.append_assoc ..))
    have hsame : mapping.nativeAddress = native :=
      Except.ok.inj ((hmade.mapped mapping hfound).symm.trans hnative)
    subst hsame
    refine ⟨fun call answer hlocates hderive hmem => ?_, fun call hcall => ?_⟩
    · exact located_run_of_mapped hstandard hreached.coherent
        (AddressTable.native?_of_find? hfound) hlocates hderive hmem
    · exact step_of_mapped (hreached.run hstandard hdeployer later).state.table
        (run_extends hstandard _ later evm mapping hfound) hcall

/-- Whether an unmapped address has a native address, and which, can be computed. -/
theorem step_compute_of_toOption (hunmapped : machine.state.table.find? evm = none)
    (hderived : (wiring.provisioner.derive machine.state.references evm).toOption = some native) :
    (machine.step wiring (.call (.compute evm))).effect =
      .ended (.compute evm) (.ok (.integer native)) := by
  cases hresult : wiring.provisioner.derive machine.state.references evm with
  | error stop => rw [hresult] at hderived; cases hderived
  | ok found =>
      rw [hresult] at hderived
      cases hderived
      have hended : (Registry.begin wiring (.compute evm) machine.state).outcome =
          .ok (.finished (.integer native)) := by
        simp [Registry.begin, Registry.finishing, Addresses.compute, Procedure.outcome_bind,
          AddressTable.native?_eq_none_iff.mpr hunmapped, hresult]
      simp only [step, hended]

/-- Address 7 is predicted under the proxy reference 9.  The ownership changes, other references are
set, and the address is resolved with a provisioning as the other kind inside; everything names 9.
After an upgrade of the proxy reference a derivation finds 10, and the address still computes to
9. -/
theorem prediction_binds_until_upgrade :
    let wiring := (Launched.small .toClassReference).wiring
    let predicted := (idle (Launched.small .toClassReference).state).run wiring
      [.call (.setClassReference 2 "proxy" 9)]
    let events : List Event :=
      [.call (.transferOwnership 2 3), .call (.setClassReference 3 "eoa" 5), .call (.resolve 7),
        .call (.derive 7), .call (.provisionContract 7 "0x00"), .reply (.deployed 9),
        .reply (.refused (.refusal .alreadyDeployed []))]
    let upgraded := (predicted.run wiring events).run wiring
      [.call (.setClassReference 3 "proxy" 10)]
    (∀ call answer, call.locates? = some 7 →
      .ended call (.ok answer) ∈ predicted.effects wiring events → answer = .integer 9) ∧
    (wiring.provisioner.derive upgraded.state.references 7).toOption = some 10 ∧
    (upgraded.step wiring (.call (.compute 7))).effect =
      .ended (.compute 7) (.ok (.integer 9)) := by
  intro wiring predicted events upgraded
  have hstayed : ∀ part rest, events = part ++ rest →
      (predicted.run wiring part).state.references.reference? .proxy =
        predicted.state.references.reference? .proxy := by
    intro part rest hsplit
    have hcut : ∀ length ≤ 7,
        (predicted.run wiring (events.take length)).state.references.reference? .proxy =
          predicted.state.references.reference? .proxy := by decide +kernel
    have hpart : part = events.take part.length :=
      List.prefix_iff_eq_take.mp ⟨rest, hsplit.symm⟩
    rw [hpart]
    exact hcut part.length (List.IsPrefix.length_le ⟨rest, hsplit.symm⟩)
  obtain ⟨hanswers, hforever⟩ :=
    prediction_binds (Launched.create_small .toClassReference)
      [.call (.setClassReference 2 "proxy" 9)] events 7 9 rfl (by decide +kernel)
      (step_compute_of_toOption (by decide +kernel) (by decide +kernel)) hstayed
  refine ⟨hanswers, by decide +kernel, ?_⟩
  obtain ⟨-, hkept⟩ := hforever events [] (List.append_nil _).symm (by decide +kernel)
    [.call (.setClassReference 3 "proxy" 10)]
  exact hkept (.compute 7) (.inr rfl)

end Machine

end AccountRegistry
