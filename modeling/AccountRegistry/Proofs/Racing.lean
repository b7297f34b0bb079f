import AccountRegistry.Proofs.GuardedCalls
import AccountRegistry.Proofs.Nesting

/-!
# Racing provisionings

While a provisioning waits for the ledger, its address may be mapped by calls that happen inside it.
When the ledger then confirms the outer plan, the outer call finds a mapping that it did not write.
It converges to that mapping if both name the same native address, and is refused otherwise.

* `Steady`, with `Steady.step` and `Steady.run`: while the proxy reference stays as it is, whatever
  is planned or mapped inside the call is derived from the same reference as the outer plan.
* `racing_provisioning_converges`: what the outer call comes to, and that it converges in particular
  whenever the proxy reference stayed.
* `overtaken_provisioning_fails`: it does not converge after an upgrade of the proxy reference.
-/

namespace AccountRegistry

/-- The plan that a call asks the ledger for, where it does. -/
def Effect.plan? : Effect → Option DeploymentPlan
  | .asked _ plan => some plan
  | _ => none

theorem Effect.plan?_eq_some {effect : Effect} {plan : DeploymentPlan} :
    effect.plan? = some plan ↔ ∃ call, effect = .asked call plan := by
  cases effect <;> simp [plan?]

namespace Machine

variable {wiring : Wiring} {machine : Machine} {reference evm : Int} {frame : List Waiting}

/-! ## Under one proxy reference -/

/-- Inside a frame, every plan that waits and the mapping of an address were derived from one class
reference. -/
structure Steady (wiring : Wiring) (reference evm : Int) (frame : List Waiting)
    (machine : Machine) : Prop where
  waiting : ∃ above, machine.waiting = above ++ frame ∧ ∀ waiting ∈ above,
    (∀ given, waiting.call ≠ .deployIfAbsent given) →
      Derivation.accountAddress wiring.hash reference waiting.plan.evmAddress
        wiring.identity.deployer = .ok waiting.plan.nativeAddress
  mapped : ∀ mapping, machine.state.table.find? evm = some mapping →
    Derivation.accountAddress wiring.hash reference evm wiring.identity.deployer =
      .ok mapping.nativeAddress

theorem Steady.step (hstandard : wiring.Standard)
    (hsteady : machine.Steady wiring reference evm frame)
    (hreference : machine.state.references.reference? .proxy = some reference) {event : Event}
    (hinside : ∀ reply, event = .reply reply → machine.waiting ≠ frame) :
    (machine.step wiring event).machine.Steady wiring reference evm frame where
  waiting := by
    obtain ⟨above, habove, hderived⟩ := hsteady.waiting
    rcases step_waiting wiring machine event with hkept | ⟨call, plan, rfl, hasks, hjoined⟩ |
      ⟨latest, reply, rfl, hleft⟩
    · exact ⟨above, hkept.trans habove, hderived⟩
    · refine ⟨⟨call, plan⟩ :: above, by rw [hjoined, habove]; rfl, ?_⟩
      refine List.forall_mem_cons.mpr ⟨fun hcall => ?_, hderived⟩
      -- a plan is made under the reference of the moment
      obtain ⟨-, hplan, hcurrent, -⟩ := Registry.begin_asks_derived hstandard hcall hasks
      rw [hreference] at hcurrent
      cases hcurrent
      exact hplan.native
    · cases above with
      | nil => exact absurd habove (hinside reply rfl)
      | cons first rest =>
          have hstack := hleft.symm.trans habove
          exact ⟨rest, (List.cons.inj hstack).2, (List.forall_mem_cons.mp hderived).2⟩
  mapped := by
    intro mapping hfound
    rcases step_table hstandard machine event with hkept | ⟨written, hwrites, -, htable⟩
    · exact hsteady.mapped mapping (hkept ▸ hfound)
    · rw [htable, AddressTable.find?_add] at hfound
      split at hfound
      · rename_i hevm
        cases hfound
        cases hwrites with
        | @provisioned call plan rest reply hwaiting hcall hconfirms =>
            obtain ⟨above, habove, hderived⟩ := hsteady.waiting
            cases above with
            | nil => exact absurd habove (hinside reply rfl)
            | cons first others =>
                cases (List.cons.inj (hwaiting.symm.trans habove)).1
                rw [← show plan.evmAddress = evm from hevm]
                exact hderived _ List.mem_cons_self hcall
        | @registered caller target account hmade =>
            obtain ⟨-, current, hcurrent, hnative⟩ := Provisioning.derive_eq_ok.mp hmade
            rw [hreference] at hcurrent
            cases hcurrent
            rw [← show target = evm from hevm]
            exact hnative
      · exact hsteady.mapped mapping hfound

theorem Steady.run (hstandard : wiring.Standard)
    (hsteady : machine.Steady wiring reference evm frame)
    {events : List Event} (hinside : machine.Inside wiring frame events)
    (hreference : ∀ part rest, events = part ++ rest →
      (machine.run wiring part).state.references.reference? .proxy = some reference) :
    (machine.run wiring events).Steady wiring reference evm frame := by
  induction events generalizing machine with
  | nil => exact hsteady
  | cons event rest ih =>
      refine ih (hsteady.step hstandard (hreference [] _ rfl) hinside.1) hinside.2 ?_
      rintro part others rfl
      exact hreference (event :: part) others rfl

/-! ## The outer call -/

/-- A provisioning whose plan is confirmed after its address was mapped changes nothing.  It returns
the native address of the mapping if that is the planned one, and is refused otherwise. -/
theorem Valid.step_reply_of_mapped (hstandard : wiring.Standard) (hvalid : machine.Valid wiring)
    {call : Call} {plan : DeploymentPlan} {rest : List Waiting} {reply : HostReply}
    {mapping : Mapping} (hwaiting : machine.waiting = ⟨call, plan⟩ :: rest)
    (hcall : ∀ given, call ≠ .deployIfAbsent given) (hconfirms : reply.Confirms plan)
    (hmapped : machine.state.table.find? plan.evmAddress = some mapping) :
    (machine.step wiring (.reply reply)).machine = ⟨machine.state, rest⟩ ∧
      ((mapping.nativeAddress = plan.nativeAddress ∧
          (machine.step wiring (.reply reply)).effect =
            .ended call (.ok (.integer mapping.nativeAddress))) ∨
        (mapping.nativeAddress ≠ plan.nativeAddress ∧ ∃ fault,
          (machine.step wiring (.reply reply)).effect = .ended call (.error (.failed fault)) ∧
            fault.code? = some .alreadyRegistered)) := by
  have hderived := (hvalid.coherent.latest hwaiting hcall).2
  rw [step_reply_cons reply hwaiting]
  dsimp only
  -- the mapping is found, so of the four ways to go on only the first two are open
  cases Registry.resume_of_confirms hstandard hcall hderived hvalid.state.table hconfirms with
  | converged existing hfound hsame hanswer hkept =>
      cases hmapped.symm.trans hfound
      exact ⟨by rw [hkept], .inl ⟨hsame, by rw [hanswer]⟩⟩
  | overtaken existing hfound hother hrefused =>
      cases hmapped.symm.trans hfound
      obtain ⟨fault, hfault, hcode⟩ := hrefused.outcome
      exact ⟨by rw [hrefused.state_eq], .inr ⟨hother, fault, by rw [hfault], hcode⟩⟩
  | occupied hfree => exact absurd (hmapped.symm.trans hfree) nofun
  | written hadmits => exact absurd (hmapped.symm.trans hadmits.unmapped) nofun

/-- A provisioning that asks the ledger begins a steady run: its address is not mapped yet. -/
theorem Steady.of_asked (hstandard : wiring.Standard) {call : Call} {plan : DeploymentPlan}
    (hcall : ∀ given, call ≠ .deployIfAbsent given)
    (hasked : (machine.step wiring (.call call)).effect = .asked call plan) :
    machine.state.table.find? plan.evmAddress = none ∧
      Steady wiring plan.request.classReference plan.evmAddress
        (⟨call, plan⟩ :: machine.waiting) (machine.step wiring (.call call)).machine := by
  obtain ⟨-, hbegun, hjoined⟩ := step_asked hstandard hasked
  obtain ⟨-, -, -, hadmits⟩ := Registry.begin_asks_derived hstandard hcall hbegun
  have hunmapped : machine.state.table.find? plan.evmAddress = none := hadmits.unmapped
  refine ⟨hunmapped, ?_⟩
  rw [hjoined]
  refine ⟨⟨[], rfl, fun _ hmem => absurd hmem List.not_mem_nil⟩, fun other hfound => ?_⟩
  exact absurd (hunmapped.symm.trans hfound) nofun

/-- While a provisioning of a created registry waited, the calls inside it mapped its address, and
then the ledger confirms its plan.  The address was not mapped when the call began, and what the
outer call comes to changes nothing: it returns the native address of the mapping if that is the
planned one, and is refused as registered already if it is another one.  The two are the same
whenever the proxy reference stayed as it was. -/
theorem racing_provisioning_converges {hash : Hash} {setup : Setup} {launched : Launched}
    (hcreated : Launched.create hash setup = .ok launched) (before inner : List Event)
    (call : Call) (evm : Int) (plan : DeploymentPlan) (mapping : Mapping) (reply : HostReply)
    (hprovisions : call.provisions? = some evm) :
    let wiring := launched.wiring
    let asking := (idle launched.state).run wiring before
    let asked := asking.step wiring (.call call)
    let reached := asked.machine.run wiring inner
    let ended := reached.step wiring (.reply reply)
    asked.effect = .asked call plan → asked.machine.Inside wiring asked.machine.waiting inner →
    reached.waiting = asked.machine.waiting → reached.state.table.find? evm = some mapping →
    reply.Confirms plan →
    asking.state.table.find? evm = none ∧
    ended.machine = ⟨reached.state, asking.waiting⟩ ∧
    ((mapping.nativeAddress = plan.nativeAddress ∧
        ended.effect = .ended call (.ok (.integer mapping.nativeAddress))) ∨
      (mapping.nativeAddress ≠ plan.nativeAddress ∧ ∃ fault,
        ended.effect = .ended call (.error (.failed fault)) ∧
          fault.code? = some .alreadyRegistered)) ∧
    ((∀ part rest, inner = part ++ rest →
        (asked.machine.run wiring part).state.references.reference? .proxy =
          asking.state.references.reference? .proxy) →
      ended.effect = .ended call (.ok (.integer mapping.nativeAddress))) := by
  intro wiring asking asked reached ended hasked hinside hback hmapped hconfirms
  have hstandard : wiring.Standard := Launched.create_standard hcreated
  have hdeployer : Address.IsNative wiring.identity.deployer := Launched.create_deployer hcreated
  have hcall := Call.ne_deployIfAbsent_of_provisions? hprovisions
  obtain ⟨-, hbegun, hjoined⟩ := step_asked hstandard hasked
  obtain ⟨hplanned, hderived, hreference, -⟩ :=
    Registry.begin_asks_derived hstandard hcall hbegun
  have hevm : plan.evmAddress = evm := Option.some.inj (hplanned.symm.trans hprovisions)
  obtain ⟨hunmapped, hsteady⟩ := Steady.of_asked hstandard hcall hasked
  rw [← hevm] at hmapped ⊢
  have hframe : asked.machine.waiting = ⟨call, plan⟩ :: asking.waiting :=
    congrArg Machine.waiting hjoined
  have hasking : asking.Valid wiring := .reached hcreated before
  have hvalid : reached.Valid wiring :=
    (hasking.step hstandard hdeployer (.call call)).run hstandard hdeployer inner
  obtain ⟨hkept, hended⟩ :=
    hvalid.step_reply_of_mapped hstandard (hback.trans hframe) hcall hconfirms hmapped
  refine ⟨hunmapped, hkept, hended, fun hstayed => ?_⟩
  rw [hframe] at hinside
  have hnative := (hsteady.run hstandard hinside fun part rest hsplit =>
    (hstayed part rest hsplit).trans hreference).mapped mapping hmapped
  have hsame : mapping.nativeAddress = plan.nativeAddress :=
    Except.ok.inj (hnative.symm.trans hderived.native)
  rcases hended with ⟨-, hended⟩ | ⟨hother, -⟩
  · exact hended
  · exact absurd hsame hother

/-! ## Two races -/

/-- The plan for address 7 in the small registry under the proxy reference 9, where every account
lives at its class reference. -/
def resolvingPlan : DeploymentPlan := ⟨7, 9, ⟨9, [1, 7], 7, 1, ⟨"eoa", none, "0x"⟩⟩⟩

theorem resolving_asked :
    let wiring := (Launched.small .toClassReference).wiring
    let asking := (idle (Launched.small .toClassReference).state).run wiring
      [.call (.setClassReference 2 "proxy" 9)]
    (asking.step wiring (.call (.resolve 7))).effect = .asked (.resolve 7) resolvingPlan := by
  intro wiring asking
  have hplan : (asking.step wiring (.call (.resolve 7))).effect.plan? = some resolvingPlan := by
    decide +kernel
  obtain ⟨call, hasked⟩ := Effect.plan?_eq_some.mp hplan
  obtain ⟨rfl, -⟩ :=
    step_asked (Launched.create_standard (Launched.create_small .toClassReference)) hasked
  exact hasked

/-- While the address is resolved, it is provisioned with code; the outer call then hears that the
account exists, and converges. -/
theorem racing_provisioning_converges_to_other_kind :
    let wiring := (Launched.small .toClassReference).wiring
    let asking := (idle (Launched.small .toClassReference).state).run wiring
      [.call (.setClassReference 2 "proxy" 9)]
    let asked := asking.step wiring (.call (.resolve 7))
    let reached := asked.machine.run wiring
      [.call (.provisionContract 7 "0x00"), .reply (.deployed 9)]
    let ended := reached.step wiring (.reply (.refused (.refusal .alreadyDeployed [])))
    reached.state.table.find? 7 = some ⟨7, 9, "contract-account", 9⟩ ∧
      ended.effect = .ended (.resolve 7) (.ok (.integer 9)) := by
  intro wiring asking asked reached ended
  have hinside : asked.machine.Inside wiring asked.machine.waiting
      [.call (.provisionContract 7 "0x00"), .reply (.deployed 9)] := by
    refine ⟨nofun, fun _ _ hframe => ?_, trivial⟩
    exact absurd (congrArg List.length hframe) (by decide +kernel)
  refine ⟨by decide +kernel, ?_⟩
  obtain ⟨-, -, ⟨-, hended⟩ | ⟨hother, -⟩, -⟩ :=
    racing_provisioning_converges (Launched.create_small .toClassReference)
      [.call (.setClassReference 2 "proxy" 9)]
      [.call (.provisionContract 7 "0x00"), .reply (.deployed 9)] (.resolve 7) 7 resolvingPlan
      ⟨7, 9, "contract-account", 9⟩ (.refused (.refusal .alreadyDeployed [])) rfl
      resolving_asked hinside (hinside.waiting_eq (by decide +kernel)) (by decide +kernel) rfl
  · exact hended
  · exact absurd rfl hother

/-- While the address is resolved, the proxy reference is overwritten and the address is resolved
under the new one, which maps it.  The ledger then deploys the outer account as planned, and the
outer call fails instead of returning the native address of the mapping. -/
theorem overtaken_provisioning_fails :
    let wiring := (Launched.small .toClassReference).wiring
    let asking := (idle (Launched.small .toClassReference).state).run wiring
      [.call (.setClassReference 2 "proxy" 9)]
    let asked := asking.step wiring (.call (.resolve 7))
    let inner : List Event :=
      [.call (.setClassReference 2 "proxy" 10), .call (.resolve 7), .reply (.deployed 10)]
    let reached := asked.machine.run wiring inner
    asked.effect = .asked (.resolve 7) resolvingPlan ∧
      asked.machine.Inside wiring asked.machine.waiting inner ∧
      reached.waiting = asked.machine.waiting ∧
      reached.state.table.find? 7 = some ⟨7, 10, "eoa", 10⟩ ∧
      (HostReply.deployed 9).Confirms resolvingPlan ∧
      (reached.step wiring (.reply (.deployed 9))).effect ≠
        .ended (.resolve 7) (.ok (.integer 10)) := by
  intro wiring asking asked inner reached
  have hinside : asked.machine.Inside wiring asked.machine.waiting inner := by
    refine ⟨nofun, nofun, fun _ _ hframe => ?_, trivial⟩
    exact absurd (congrArg List.length hframe) (by decide +kernel)
  refine ⟨resolving_asked, hinside, hinside.waiting_eq (by decide +kernel), by decide +kernel, rfl,
    fun hended => ?_⟩
  have hstopped : (reached.step wiring (.reply (.deployed 9))).effect.stop?.isSome = true := by
    decide +kernel
  rw [hended] at hstopped
  cases hstopped

end Machine

end AccountRegistry
