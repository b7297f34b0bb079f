import AccountRegistry.Proofs.OpenSystem

/-!
# Where the kind of a mapping comes from

The kind of an account is not part of what its address is made from, so the account that a
provisioning finds deployed at its planned address may be of another kind than the one asked for.  A
registration copies the kind that the ledger shows.  A provisioning records the kind it asked for,
and that is the kind of the account if its own request deployed it.

* `find?_step`, `find?_run`: an account of the ledger stays as it is.
* `kind_of_written`: what one event can write, and how its kind relates to the account.
* `recorded_kinds`: so in every run, the kind of a mapping is that of its account unless the mapping
  was written on an account that the ledger held before its request.
* `converged_kind_differs`: then the two may differ.
-/

namespace AccountRegistry

/-- A mapping that an event adds to the table is one that the event writes. -/
theorem Machine.mem_mappings_step {wiring : Wiring} (hstandard : wiring.Standard)
    {machine : Machine} {event : Event} {mapping : Mapping}
    (hmem : mapping ∈ (machine.step wiring event).machine.state.table.mappings) :
    mapping ∈ machine.state.table.mappings ∨
      (Writes wiring machine event mapping ∧ machine.state.table.Admits mapping) := by
  rcases step_table hstandard machine event with hkept | ⟨written, hwrites, hadmits, htable⟩
  · exact .inl (hkept ▸ hmem)
  · rw [htable, AddressTable.mappings_add] at hmem
    rcases List.mem_cons.mp hmem with rfl | hold
    · exact .inr ⟨hwrites, hadmits⟩
    · exact .inl hold

namespace System

variable {wiring : Wiring} {system : System}

/-! ## Accounts stay -/

theorem run_append (wiring : Wiring) (system : System) (before after : List Event) :
    system.run wiring (before ++ after) = (system.run wiring before).run wiring after := by
  induction before generalizing system with
  | nil => rfl
  | cons event rest ih => exact ih _

/-- An account of the ledger stays as it is, whatever happens. -/
theorem find?_step {place : Int} {account : DeployedAccount}
    (hfound : system.ledger.find? place = some account) (event : Event) :
    (system.step wiring event).system.ledger.find? place = some account := by
  cases event with
  | call call => exact hfound
  | reply reply => exact hfound
  | reject rejection => exact hfound
  | request request => exact Ledger.find?_deploy wiring.hash request hfound
  | deploy =>
      cases hwaiting : system.machine.waiting with
      | nil =>
          rw [step_deploy_nil hwaiting]
          exact hfound
      | cons waiting rest =>
          rw [step_deploy_cons hwaiting]
          exact Ledger.find?_deploy wiring.hash waiting.plan.request hfound

/-! ## One event -/

/-- The latest waiting call holds the plan of a mapping that is not written yet, and the ledger
holds an account at the planned address already. -/
structure ConvergesOn (system : System) (mapping : Mapping) (account : DeployedAccount) :
    Prop where
  waiting : ∃ call plan rest, system.machine.waiting = ⟨call, plan⟩ :: rest ∧
    plan.mapping = mapping
  unmapped : system.machine.state.table.find? mapping.evmAddress = none
  occupied : system.ledger.find? mapping.nativeAddress = some account

/-- A mapping that an event writes has an account, which is of its kind unless the event is a
request for an account that the ledger holds already. -/
theorem kind_of_written (hstandard : wiring.Standard) (hcoherent : system.machine.Coherent wiring)
    {event : Event} (hgenuine : event.Genuine) {mapping : Mapping}
    (hmem : mapping ∈ (system.step wiring event).system.machine.state.table.mappings) :
    mapping ∈ system.machine.state.table.mappings ∨
      ∃ account,
        (system.step wiring event).system.ledger.find? mapping.nativeAddress = some account ∧
        (account.initialization.kind = mapping.kind ∨
          (event = .deploy ∧ system.ConvergesOn mapping account)) := by
  cases event with
  | request request => exact .inl hmem
  | reject rejection => exact .inl hmem
  | call call =>
      rw [step_call] at hmem ⊢
      rcases Machine.mem_mappings_step hstandard hmem with hold | ⟨hwrites, -⟩
      · exact .inl hold
      · -- a registration copies the kind of the account that the ledger shows
        obtain ⟨caller, evm, given, account, -, hshown, -, rfl⟩ := hwrites.of_informed rfl
        exact .inr ⟨account, hshown, .inl rfl⟩
  | reply reply =>
      obtain ⟨fault, rfl⟩ := hgenuine
      rw [step_reply] at hmem
      rcases Machine.mem_mappings_step hstandard hmem with hold | ⟨hwrites, -⟩
      · exact .inl hold
      · cases hwrites with
        | provisioned _ _ hconfirms => cases hconfirms
  | deploy =>
      cases hwaiting : system.machine.waiting with
      | nil =>
          rw [step_deploy_nil hwaiting] at hmem
          exact .inl hmem
      | cons waiting rest =>
          rw [step_deploy_cons hwaiting] at hmem ⊢
          rcases Machine.mem_mappings_step hstandard hmem with hold | ⟨hwrites, hadmits⟩
          · exact .inl hold
          · cases hwrites with
            | @provisioned call plan others _ hlatest hcall hconfirms =>
                obtain ⟨rfl, rfl⟩ := List.cons.inj (hwaiting.symm.trans hlatest)
                have hderived := (hcoherent.latest hlatest hcall).2
                refine .inr ?_
                rcases Ledger.confirms_cases hderived hconfirms with hreply | ⟨found, hfound⟩
                · -- the request itself deployed the account, with the kind that the plan asks for
                  exact ⟨_, Ledger.find?_deploy_self hreply, .inl rfl⟩
                · exact ⟨found, Ledger.find?_deploy wiring.hash plan.request hfound, .inr
                    ⟨rfl, ⟨call, plan, _, hlatest, rfl⟩, hadmits.unmapped, hfound⟩⟩

/-! ## Every run -/

/-- In every reachable state an account lives at the native address of each mapping, and it is of
the kind of the mapping, whether the mapping was written by a registration or by a provisioning,
unless the mapping was written by a request of a provisioning that came when the ledger held that
account already: the address was not mapped right before that event, and right after it the mapping
is in the table. -/
theorem recorded_kinds {hash : Hash} {setup : Setup} {launched : Launched}
    (hcreated : Launched.create hash setup = .ok launched) (events : List Event)
    (hgenuine : ∀ event ∈ events, event.Genuine) :
    let start := idle launched.state .empty
    let system := start.run launched.wiring events
    ∀ mapping ∈ system.machine.state.table.mappings, ∃ account,
      system.ledger.find? mapping.nativeAddress = some account ∧
      (account.initialization.kind = mapping.kind ∨
        ∃ before after, events = before ++ .deploy :: after ∧
          (start.run launched.wiring before).ConvergesOn mapping account ∧
          mapping ∈ (start.run launched.wiring
            (before ++ [.deploy])).machine.state.table.mappings) := by
  intro start system
  have hstandard : launched.wiring.Standard := Launched.create_standard hcreated
  have hcoherent (prior : List Event) : (start.run launched.wiring prior).machine.Coherent
      launched.wiring := by
    obtain ⟨taken, htaken⟩ := run_machine launched.wiring start prior
    rw [htaken]
    exact (Machine.Coherent.idle _ _).run hstandard taken
  -- the last event writes the mapping, or it only adds accounts
  induction events using List.reverseRecOn with
  | nil =>
      intro mapping hmem
      have hnone : mapping ∈ launched.state.table.mappings := hmem
      rw [Launched.create_table hcreated] at hnone
      cases hnone
  | append_singleton prior event ih =>
      intro mapping hmem
      have hsystem : system =
          ((start.run launched.wiring prior).step launched.wiring event).system :=
        run_append launched.wiring start prior [event]
      rw [hsystem] at hmem ⊢
      have hlast : event.Genuine := hgenuine event (List.mem_append_right _ List.mem_cons_self)
      rcases kind_of_written hstandard (hcoherent prior) hlast hmem with
        hold | ⟨account, hfound, hkind | ⟨rfl, hconverges⟩⟩
      · obtain ⟨account, hfound, horigin⟩ :=
          ih (fun event hevent => hgenuine event (List.mem_append_left _ hevent)) mapping hold
        refine ⟨account, find?_step hfound event, ?_⟩
        rcases horigin with hkind | ⟨before, after, rfl, hconverges, hwritten⟩
        · exact .inl hkind
        · exact .inr ⟨before, after ++ [event], by simp, hconverges, hwritten⟩
      · exact ⟨account, hfound, .inl hkind⟩
      · refine ⟨account, hfound, .inr ⟨prior, [], rfl, hconverges, ?_⟩⟩
        rw [run_append]
        exact hmem

/-- An account with code is requested from elsewhere and registers itself; another address is
resolved.  Each mapping has the kind of its account. -/
theorem recorded_kinds_of_registration :
    let events : List Event :=
      [.call (.setClassReference 2 "proxy" 9),
        .request ⟨9, [1, 7], 7, 1, ⟨"contract-account", none, "0x00"⟩⟩, .call (.register 7 7 none),
        .call (.resolve 8), .deploy]
    let system := (idle (Launched.small Word.ofBytes).state .empty).run
      (Launched.small Word.ofBytes).wiring events
    system.machine.state.table.mappings = [⟨8, 8, "eoa", 9⟩, ⟨7, 7, "contract-account", 9⟩] ∧
      ∃ account, system.ledger.find? 7 = some account ∧
        account.initialization.kind = "contract-account" := by
  intro events system
  have hgenuine : ∀ event ∈ events, event.Genuine := by simp [events, Event.Genuine]
  have hkinds := recorded_kinds (Launched.create_small Word.ofBytes) events hgenuine
  obtain ⟨account, hfound, -⟩ := hkinds ⟨7, 7, "contract-account", 9⟩ (by decide +kernel)
  have hshown : (system.ledger.find? 7).map (·.initialization.kind) = some "contract-account" := by
    decide +kernel
  refine ⟨by decide +kernel, account, hfound, ?_⟩
  rw [hfound] at hshown
  exact Option.some.inj hshown

/-- An account with code is requested from elsewhere, and then its address is resolved, for which
the registry knows no code.  The request finds the account, and the mapping gets the kind that was
asked for, although no two seeds of the run share an address. -/
theorem converged_kind_differs :
    let events : List Event :=
      [.call (.setClassReference 2 "proxy" 9),
        .request ⟨9, [1, 7], 7, 1, ⟨"contract-account", none, "0x00"⟩⟩, .call (.resolve 7), .deploy]
    let start := idle (Launched.small Word.ofBytes).state .empty
    let system := start.run (Launched.small Word.ofBytes).wiring events
    (∀ event ∈ events, event.Genuine) ∧
      CollisionFree Word.ofBytes (start.runSeeds (Launched.small Word.ofBytes).wiring events) ∧
      system.machine.state.table.find? 7 = some ⟨7, 7, "eoa", 9⟩ ∧
      system.ledger.find? 7 = some ⟨7, 9, ⟨"contract-account", none, "0x00"⟩⟩ := by
  intro events start system
  exact ⟨by simp [events, Event.Genuine], .of_toOption (by decide +kernel), by decide +kernel,
    by decide +kernel⟩

end System

end AccountRegistry
