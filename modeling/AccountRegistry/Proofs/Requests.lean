import AccountRegistry.Proofs.Racing

/-!
# The discipline of requests

What a registry asks the ledger for, over any ledger and through any nesting of calls.

* `State.Warrants`: what is so at the moment in which a provisioning sends the request of its plan,
  and what stands in the request.
* `asked_of_step`: a request is sent in the very event that makes a call, so that a call sends one
  at most (`asking_sublist`), and a reply sends none.
* `requests_are_warranted`: what follows for every run, and that no request for an EVM address is
  sent once the address is mapped.

A bare deployment sends the request that it was given, whatever that is; nothing is said about it
beyond that it sends one.
-/

namespace AccountRegistry

/-- The call that an event makes. -/
def Event.call? : Event → Option Call
  | .call made => some made
  | .reply _ => none

/-- The call that asks the ledger, where the effect is that one does. -/
def Effect.asking? : Effect → Option Call
  | .asked call _ => some call
  | _ => none

/-! ## What a request contains -/

/-- Every call asks for one of two kinds of account, and for no code where it asks for `eoa`. -/
theorem Call.Wants.kind_cases {state : State} {call : Call} {evm : Int} {kind code : String}
    (hwants : call.Wants state evm kind code) :
    (kind = ClassKind.eoa.label ∧ code = "0x") ∨ kind = ClassKind.contractAccount.label := by
  cases hwants with
  | eoa => exact .inl ⟨rfl, rfl⟩
  | contract => exact .inr rfl
  | resolve =>
      -- the code of the address decides
      by_cases hcode : state.codeAt evm = "0x"
      · exact .inl ⟨if_pos hcode, hcode⟩
      · exact .inr (if_neg hcode)

/-- In this state the call may send the request of the plan: the EVM address is in range and has no
mapping, the code can be read, the address that is derived now is the planned one and belongs to no
other EVM address; and the request asks for exactly the account that is deployed there. -/
structure State.Warrants (wiring : Wiring) (state : State) (call : Call) (plan : DeploymentPlan) :
    Prop where
  provisions : call.provisions? = some plan.evmAddress
  evm : 0 ≤ plan.evmAddress ∧ plan.evmAddress < Int.pow 2 160
  unmapped : state.table.find? plan.evmAddress = none
  code : Numeral.isHexString plan.request.initialization.bytecode = true
  derived : Provisioning.derive wiring.hash wiring.identity.deployer ClassReferences.read
    state.references plan.evmAddress = .ok plan.nativeAddress
  unbound : ∀ bound, state.table.evm? plan.nativeAddress = some bound → bound = plan.evmAddress
  salt : plan.request.salt = plan.evmAddress
  arguments : plan.request.constructorArgs = [wiring.identity.deployer, plan.evmAddress]
  sender : plan.request.deployer = wiring.identity.deployer
  reference : state.references.reference? .proxy = some plan.request.classReference
  initialization : ∃ kind : ClassKind, (kind = .eoa ∨ kind = .contractAccount) ∧
    plan.request.initialization.kind = kind.label ∧
    plan.request.initialization.implementation = state.references.reference? kind ∧
    (kind = .eoa → plan.request.initialization.bytecode = "0x")
  placed : Derivation.contractAddress wiring.hash plan.request.deployer plan.request.salt
    plan.request.classReference plan.request.constructorArgs = .ok plan.nativeAddress

theorem State.Warrants.of_asks {wiring : Wiring} (hstandard : wiring.Standard) {state : State}
    {call : Call} {plan : DeploymentPlan} (hcall : ∀ given, call ≠ .deployIfAbsent given)
    (hended : (Registry.begin wiring call state).outcome = .ok (.asks plan)) :
    state.Warrants wiring call plan := by
  rcases Registry.begin_asks hstandard hended with hbare | ⟨evm, kind, code, hwants, hplan, hadmits⟩
  · exact absurd hbare (hcall plan)
  · obtain ⟨hcode, hevm, reference, hreference, native, hnative, rfl⟩ :=
      Provisioning.plan_eq_ok.mp hplan
    exact {
      provisions := hwants.provisions?
      evm := Address.isEvm_iff.mp hevm
      unmapped := hadmits.unmapped
      code := hcode
      derived := Provisioning.derive_eq_ok.mpr ⟨hevm, reference, hreference, hnative⟩
      unbound := hadmits.unbound
      salt := rfl
      arguments := rfl
      sender := rfl
      reference := hreference
      initialization := by
        rcases hwants.kind_cases with ⟨rfl, rfl⟩ | rfl
        · exact ⟨.eoa, .inl rfl, rfl, Provisioning.implementation_label _ _, fun _ => rfl⟩
        · exact ⟨.contractAccount, .inr rfl, rfl, Provisioning.implementation_label _ _, nofun⟩
      placed := hnative }

namespace Machine

variable {wiring : Wiring} {machine : Machine}

/-! ## When requests are sent -/

/-- A request is sent by the event that makes the call; a reply ends a call and sends none. -/
theorem asked_of_step {event : Event} {call : Call} {plan : DeploymentPlan}
    (hasked : (machine.step wiring event).effect = .asked call plan) :
    event = .call call ∧
      (Registry.begin wiring call machine.state).outcome = .ok (.asks plan) := by
  cases event with
  | call called =>
      cases hended : (Registry.begin wiring called machine.state).outcome with
      | error stop => simp [step, hended] at hasked
      | ok progress =>
          cases progress with
          | finished answer => simp [step, hended] at hasked
          | asks made =>
              simp only [step, hended, Effect.asked.injEq] at hasked
              obtain ⟨rfl, rfl⟩ := hasked
              exact ⟨rfl, hended⟩
  | reply reply =>
      cases hwaiting : machine.waiting with
      | nil => rw [step_reply_nil reply hwaiting] at hasked; cases hasked
      | cons waiting rest => rw [step_reply_cons reply hwaiting] at hasked; cases hasked

/-- The calls that send requests are among the calls that are made, in their order: no call sends a
second one. -/
theorem asking_sublist (wiring : Wiring) (machine : Machine) (events : List Event) :
    ((machine.effects wiring events).filterMap Effect.asking?).Sublist
      (events.filterMap Event.call?) := by
  induction events generalizing machine with
  | nil => exact .slnil
  | cons event rest ih =>
      have hrest := ih (machine.step wiring event).machine
      rw [effects]
      cases heffect : (machine.step wiring event).effect with
      | asked call plan =>
          obtain ⟨rfl, -⟩ := asked_of_step heffect
          exact List.Sublist.cons_cons call hrest
      | ended | ignored =>
          -- an event that sends nothing may still be a call
          refine hrest.trans ?_
          rw [← List.singleton_append, List.filterMap_append]
          exact List.sublist_append_right _ _

/-! ## Every run -/

/-- In every run of a created registry, over any ledger and through any nesting of calls: no call
sends more than one request; a request is sent by `resolve` or one of the two provisionings, unless
it is a bare deployment's, and then only where it is warranted; and once an EVM address is mapped,
no request for it is sent any more. -/
theorem requests_are_warranted {hash : Hash} {setup : Setup} {launched : Launched}
    (hcreated : Launched.create hash setup = .ok launched) (events : List Event) :
    let wiring := launched.wiring
    let start := idle launched.state
    ((start.effects wiring events).filterMap Effect.asking?).Sublist
      (events.filterMap Event.call?) ∧
    (∀ before event after call plan, events = before ++ event :: after →
      (∀ given, call ≠ .deployIfAbsent given) →
      ((start.run wiring before).step wiring event).effect = .asked call plan →
        event = .call call ∧ (start.run wiring before).state.Warrants wiring call plan) ∧
    (∀ before after evm, events = before ++ after →
      (start.run wiring before).state.table.find? evm ≠ none →
      ∀ call plan, Effect.asked call plan ∈ (start.run wiring before).effects wiring after →
        (∀ given, call ≠ .deployIfAbsent given) → plan.request.salt ≠ evm) := by
  intro wiring start
  have hstandard : wiring.Standard := Launched.create_standard hcreated
  have hwarranted (machine : Machine) (event : Event) (call : Call) (plan : DeploymentPlan)
      (hcall : ∀ given, call ≠ .deployIfAbsent given)
      (hasked : (machine.step wiring event).effect = .asked call plan) :
      event = .call call ∧ machine.state.Warrants wiring call plan := by
    obtain ⟨hevent, hbegun⟩ := asked_of_step hasked
    exact ⟨hevent, .of_asks hstandard hcall hbegun⟩
  refine ⟨asking_sublist wiring start events, ?_, ?_⟩
  · intro before event after call plan _ hcall hasked
    exact hwarranted _ event call plan hcall hasked
  · intro before after evm _ hmapped call plan hmem hcall hsalt
    obtain ⟨inner, event, rest, rfl, hasked⟩ := mem_effects.mp hmem
    obtain ⟨-, hwarrants⟩ := hwarranted _ event call plan hcall hasked.symm
    -- the mapping is still there when the request is sent, which is then not warranted
    obtain ⟨mapping, hfound⟩ := Option.ne_none_iff_exists'.mp hmapped
    have hkept := run_extends hstandard (start.run wiring before) inner evm mapping hfound
    have hunmapped := hwarrants.unmapped
    rw [← hwarrants.salt, hsalt, hkept] at hunmapped
    cases hunmapped

/-- An address is resolved twice, and provisioned with code in between.  The first resolution sends
a warranted request; when it has been confirmed, neither of the others sends one. -/
theorem requests_are_warranted_once_resolved :
    let wiring := (Launched.small .toClassReference).wiring
    let start := idle (Launched.small .toClassReference).state
    let before : List Event :=
      [.call (.setClassReference 2 "proxy" 9), .call (.resolve 7), .reply (.deployed 9)]
    let after : List Event := [.call (.provisionContract 7 "0x00"), .call (.resolve 7)]
    (start.run wiring [.call (.setClassReference 2 "proxy" 9)]).state.Warrants wiring (.resolve 7)
        resolvingPlan ∧
      (start.run wiring before).state.table.native? 7 = some 9 ∧
      ∀ call plan, Effect.asked call plan ∈ (start.run wiring before).effects wiring after →
        (∀ given, call ≠ .deployIfAbsent given) → plan.request.salt ≠ 7 := by
  intro wiring start before after
  obtain ⟨-, hwarranted, hsettled⟩ :=
    requests_are_warranted (Launched.create_small .toClassReference) (before ++ after)
  refine ⟨?_, by decide +kernel, ?_⟩
  · exact (hwarranted [.call (.setClassReference 2 "proxy" 9)] (.call (.resolve 7))
      (.reply (.deployed 9) :: after) (.resolve 7) resolvingPlan rfl nofun resolving_asked).2
  · exact hsettled before after 7 rfl (by decide +kernel)

end Machine

end AccountRegistry
