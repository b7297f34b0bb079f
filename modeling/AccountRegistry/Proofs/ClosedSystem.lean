import AccountRegistry.Proofs.System

/-!
# A closed system has no orphans and no ghosts

In a closed system calls come one at a time and only the registry uses the ledger (`Closed`).  The
accounts of the ledger and the mappings of the registry are two stores that are updated in two
steps, with exits between and around them.

* `Matched`: the accounts and the mappings are the same list seen from two sides, and a call that
  waits does so for a plan whose mapping the table admits.
* `Matched.step`: every event of a closed system keeps that.  Because the collision check comes
  before the request, nothing lives at the planned address, so that a deployed account is recorded
  and a refused one leaves no trace.
* `accounts_are_mappings`: what follows for every run, whatever the hash is.
-/

namespace AccountRegistry

/-- What a ledger shows of an account, as far as mappings know it. -/
def DeployedAccount.entry (account : DeployedAccount) : Int × Int × String :=
  (account.address, account.classReference, account.initialization.kind)

/-- What a mapping says about its account. -/
def Mapping.entry (mapping : Mapping) : Int × Int × String :=
  (mapping.nativeAddress, mapping.classReference, mapping.kind)

namespace System

variable {wiring : Wiring} {system : System}

/-- What can happen in a closed system: one call at a time and no bare deployments, replies of the
ledger itself, whose rule may change and may throw, and no request from elsewhere. -/
def Closed (system : System) : Event → Prop
  | .call call => system.machine.waiting = [] ∧ ∀ plan, call ≠ .deployIfAbsent plan
  | .deploy => True
  | .reply reply => ∃ fault, reply = .threw fault
  | .request _ => False
  | .reject _ => True

/-- The ledger and the registry agree, and at most one call waits, for a plan that can still be
recorded. -/
structure Matched (wiring : Wiring) (system : System) : Prop where
  sound : system.machine.Sound wiring
  paired : system.ledger.accounts.map DeployedAccount.entry =
    system.machine.state.table.mappings.map Mapping.entry
  pending : system.machine.waiting = [] ∨
    ∃ call plan, system.machine.waiting = [⟨call, plan⟩] ∧
      (∀ given, call ≠ .deployIfAbsent given) ∧
      system.machine.state.table.Admits plan.mapping

namespace Matched

/-! ## The two stores -/

theorem mapping_of_account (hmatched : system.Matched wiring) {account : DeployedAccount}
    (hmem : account ∈ system.ledger.accounts) :
    ∃ mapping ∈ system.machine.state.table.mappings, mapping.entry = account.entry := by
  have hentry := List.mem_map_of_mem (f := DeployedAccount.entry) hmem
  rw [hmatched.paired] at hentry
  exact List.mem_map.mp hentry

theorem account_of_mapping (hmatched : system.Matched wiring) {mapping : Mapping}
    (hmem : mapping ∈ system.machine.state.table.mappings) :
    ∃ account ∈ system.ledger.accounts, account.entry = mapping.entry := by
  have hentry := List.mem_map_of_mem (f := Mapping.entry) hmem
  rw [← hmatched.paired] at hentry
  exact List.mem_map.mp hentry

/-- An account that is found is the account of a mapping. -/
theorem mapping_of_find? (hmatched : system.Matched wiring) {place : Int}
    {account : DeployedAccount} (hfound : system.ledger.find? place = some account) :
    ∃ mapping ∈ system.machine.state.table.mappings,
      mapping.nativeAddress = place ∧ mapping.entry = account.entry := by
  obtain ⟨mapping, hmem, hentry⟩ := hmatched.mapping_of_account (Ledger.mem_of_find? hfound)
  have hplace : mapping.nativeAddress = account.address := congrArg Prod.fst hentry
  exact ⟨mapping, hmem, hplace.trans (Ledger.address_of_find? hfound), hentry⟩

/-- Where the table admits a mapping, nothing lives on the ledger. -/
theorem find?_of_admits (hmatched : system.Matched wiring) {mapping : Mapping}
    (hadmits : system.machine.state.table.Admits mapping) :
    system.ledger.find? mapping.nativeAddress = none := by
  cases hfound : system.ledger.find? mapping.nativeAddress with
  | none => rfl
  | some account =>
      obtain ⟨other, hmem, hplace, -⟩ := hmatched.mapping_of_find? hfound
      have hvalid := hmatched.sound.valid
      have hmapped := AddressTable.native?_of_find? (hvalid.find?_of_mem hmem)
      have hbound := (hvalid.inverse _ _).mp hmapped
      rw [hplace, hvalid.evm?_of_admits hadmits] at hbound
      cases hbound

/-- The account of a mapping is found at its native address. -/
theorem find?_of_mapping (hmatched : system.Matched wiring) {mapping : Mapping}
    (hmem : mapping ∈ system.machine.state.table.mappings) :
    ∃ account, system.ledger.find? mapping.nativeAddress = some account ∧
      account.entry = mapping.entry := by
  obtain ⟨account, haccount, hentry⟩ := hmatched.account_of_mapping hmem
  have hplace : account.address = mapping.nativeAddress := congrArg Prod.fst hentry
  cases hfound : system.ledger.find? mapping.nativeAddress with
  | none =>
      have hnone := List.find?_eq_none.mp hfound account haccount
      exact absurd (decide_eq_true hplace) hnone
  | some found =>
      obtain ⟨other, hother, hsame, hshown⟩ := hmatched.mapping_of_find? hfound
      have hvalid := hmatched.sound.valid
      -- two mappings with one native address are one mapping
      have hmapping : other = mapping :=
        List.inj_on_of_nodup_map hvalid.natives_nodup hother hmem hsame
      subst hmapping
      exact ⟨found, rfl, hshown.symm⟩

/-! ## Events -/

theorem idle (wiring : Wiring) {state : State} (hempty : state.table = .empty) :
    (System.idle state .empty).Matched wiring where
  sound := .idle wiring hempty
  paired := by
    show [] = state.table.mappings.map Mapping.entry
    rw [hempty]
    rfl
  pending := .inl rfl

/-- A registration would need an account without a mapping, so a call writes nothing; if it waits,
then for a plan that the table admits. -/
theorem step_call (hstandard : wiring.Standard) (hmatched : system.Matched wiring) {call : Call}
    (hidle : system.machine.waiting = []) (hcall : ∀ plan, call ≠ .deployIfAbsent plan) :
    (system.step wiring (.call call)).system.Matched wiring := by
  have htable : (system.step wiring (.call call)).system.machine.state.table =
      system.machine.state.table := by
    rw [System.step_call]
    rcases Machine.step_table hstandard system.machine (.call (call.informed system.ledger.find?))
      with hkept | ⟨mapping, hwrites, hadmits, -⟩
    · exact hkept
    · obtain ⟨caller, evm, given, account, -, hfound, -, rfl⟩ := hwrites.of_informed rfl
      -- the account would have a mapping already, which the table then does not admit
      have hfree := hmatched.find?_of_admits hadmits
      rw [show (Addresses.registration account caller evm).nativeAddress = caller from rfl,
        hfound] at hfree
      cases hfree
  refine ⟨sound_step hstandard hmatched.sound _, ?_, ?_⟩
  · rw [htable]
    exact hmatched.paired
  · rw [htable]
    rcases Machine.step_waiting wiring system.machine (.call (call.informed system.ledger.find?))
      with hkept | ⟨asking, plan, hevent, hasks, hjoined⟩ | ⟨_, _, hevent, -⟩
    · exact .inl (hkept.trans hidle)
    · have hasking : ∀ given, asking ≠ .deployIfAbsent given := by
        rintro given rfl
        exact hcall given
          (Call.informed_eq_deployIfAbsent (AccountRegistry.Event.call.inj hevent))
      refine .inr ⟨asking, plan, hjoined.trans (by rw [hidle]), hasking, ?_⟩
      rcases Registry.begin_asks hstandard hasks with hbare | ⟨_, _, _, -, -, hadmits⟩
      · exact absurd hbare (hasking plan)
      · exact hadmits
    · cases hevent

/-- The ledger's reply to the call that waits is never that the account exists. -/
theorem not_occupied (hmatched : system.Matched wiring) {request : DeployRequest} {fault : Fault}
    (hpending : system.pending? = some request)
    (hreply : system.ledger.reply wiring.hash request = .refused fault) :
    fault.isRefusal (some .alreadyDeployed) = false := by
  rcases hmatched.pending with hidle | ⟨call, plan, hwaiting, hcall, hadmits⟩
  · rw [pending?, hidle] at hpending
    cases hpending
  · rw [pending?_cons hwaiting] at hpending
    cases hpending
    have hderived := (hmatched.sound.coherent.latest hwaiting hcall).2
    rw [← Bool.not_eq_true]
    intro hoccupied
    obtain ⟨place, account, hplace, hfound⟩ := Ledger.find?_of_occupied hreply hoccupied
    rw [Ledger.address_of_derived hderived] at hplace
    cases hplace
    have hfree : system.ledger.find? plan.nativeAddress = none := hmatched.find?_of_admits hadmits
    rw [hfree] at hfound
    cases hfound

/-- The ledger deploys the account of the call that waits and the registry records it, or neither
of the two does anything. -/
theorem step_deploy (hstandard : wiring.Standard) (hmatched : system.Matched wiring) :
    (system.step wiring .deploy).system.Matched wiring := by
  have hsound := sound_step hstandard hmatched.sound .deploy
  rcases hmatched.pending with hidle | ⟨call, plan, hwaiting, hcall, hadmits⟩
  · rw [step_deploy_nil hidle]
    exact hmatched
  · have hderived := (hmatched.sound.coherent.latest hwaiting hcall).2
    rw [step_deploy_cons hwaiting] at hsound ⊢
    by_cases hconfirms : (system.ledger.reply wiring.hash plan.request).Confirms plan
    · -- the planned address is free, so the request was deployed just now
      have hreply :
          system.ledger.reply wiring.hash plan.request = .deployed plan.nativeAddress := by
        rcases Ledger.confirms_cases hderived hconfirms with hreply | ⟨account, hfound⟩
        · exact hreply
        · have hfree : system.ledger.find? plan.nativeAddress = none :=
            hmatched.find?_of_admits hadmits
          rw [hfree] at hfound
          cases hfound
      have hwritten := (Machine.step_reply_of_confirms hstandard hwaiting hcall hderived hconfirms
        hadmits).1
      refine ⟨hsound, ?_, .inl (by rw [hwritten])⟩
      -- the account and the mapping are put in front of two lists that agree
      rw [hwritten, Ledger.accounts_deploy hreply]
      show _ :: _ = _ :: _
      rw [hmatched.paired]
      rfl
    · have hkept := Machine.step_reply_of_not_confirms hstandard hwaiting hconfirms
      refine ⟨hsound, ?_, .inl (by rw [hkept])⟩
      rw [hkept, Ledger.accounts_deploy_of_ne]
      · exact hmatched.paired
      · intro place hreply
        exact hconfirms (Ledger.confirms_of_deployed hderived hreply)

/-- A rule that throws ends the call that waits, and nothing happened. -/
theorem step_threw (hstandard : wiring.Standard) (hmatched : system.Matched wiring)
    (fault : Fault) : (system.step wiring (.reply (.threw fault))).system.Matched wiring := by
  have hsound := sound_step hstandard hmatched.sound (.reply (.threw fault))
  rw [step_reply] at hsound ⊢
  rcases hmatched.pending with hidle | ⟨call, plan, hwaiting, -, -⟩
  · rw [Machine.step_reply_nil _ hidle]
    exact hmatched
  · have hrefuted : ¬ (HostReply.threw fault).Confirms plan := not_false
    have hkept := Machine.step_reply_of_not_confirms hstandard hwaiting hrefuted
    refine ⟨hsound, ?_, .inl (by rw [hkept])⟩
    rw [hkept]
    exact hmatched.paired

theorem step_reject (hmatched : system.Matched wiring) (rejection : Rejection) :
    (system.step wiring (.reject rejection)).system.Matched wiring where
  sound := hmatched.sound
  paired := hmatched.paired
  pending := hmatched.pending

/-- Every event of a closed system keeps the two stores matched. -/
theorem step (hstandard : wiring.Standard) (event : Event) (hclosed : system.Closed event)
    (hmatched : system.Matched wiring) : (system.step wiring event).system.Matched wiring := by
  cases event with
  | call call => exact hmatched.step_call hstandard hclosed.1 hclosed.2
  | deploy => exact hmatched.step_deploy hstandard
  | reply reply =>
      obtain ⟨fault, rfl⟩ := hclosed
      exact hmatched.step_threw hstandard fault
  | request request => cases hclosed
  | reject rejection => exact hmatched.step_reject rejection

end Matched

/-! ## Every run -/

/-- In every reachable state of a closed system the deployed addresses are the mapped native
addresses; each account has the class reference and the kind of its mapping; there are as many
accounts as mappings; and the ledger never replies that an account exists already.  The hash may
collide as it likes. -/
theorem accounts_are_mappings {hash : Hash} {setup : Setup} {launched : Launched}
    (hcreated : Launched.create hash setup = .ok launched) (events : List Event)
    (hclosed : (idle launched.state .empty).Obeys launched.wiring Closed events) :
    let system := (idle launched.state .empty).run launched.wiring events
    let table := system.machine.state.table
    (∀ place, (system.ledger.find? place).isSome ↔ ∃ evm, table.native? evm = some place) ∧
    (∀ evm mapping, table.find? evm = some mapping → ∃ account,
      system.ledger.find? mapping.nativeAddress = some account ∧
        account.classReference = mapping.classReference ∧
        account.initialization.kind = mapping.kind) ∧
    system.ledger.size = table.size ∧
    (∀ request fault, system.pending? = some request →
      system.ledger.reply launched.wiring.hash request = .refused fault →
        fault.isRefusal (some .alreadyDeployed) = false) := by
  intro system table
  have hstandard : launched.wiring.Standard := Launched.create_standard hcreated
  have hmatched : system.Matched launched.wiring :=
    run_induction (fun _ event hrule hmatched => hmatched.step hstandard event hrule)
      (.idle _ (Launched.create_table hcreated)) hclosed
  have hvalid := hmatched.sound.valid
  refine ⟨?_, ?_, ?_, fun _ _ hpending hreply => hmatched.not_occupied hpending hreply⟩
  · intro place
    constructor
    · intro hdeployed
      obtain ⟨account, hfound⟩ := Option.isSome_iff_exists.mp hdeployed
      obtain ⟨mapping, hmem, hplace, -⟩ := hmatched.mapping_of_find? hfound
      rw [← hplace]
      exact ⟨mapping.evmAddress, AddressTable.native?_of_find? (hvalid.find?_of_mem hmem)⟩
    · rintro ⟨evm, hmapped⟩
      obtain ⟨mapping, hfound, rfl⟩ := AddressTable.native?_eq_some_iff.mp hmapped
      obtain ⟨account, haccount, -⟩ :=
        hmatched.find?_of_mapping (AddressTable.mem_of_find? hfound)
      exact Option.isSome_iff_exists.mpr ⟨account, haccount⟩
  · intro evm mapping hfound
    obtain ⟨account, haccount, hentry⟩ :=
      hmatched.find?_of_mapping (AddressTable.mem_of_find? hfound)
    have hshown : (account.classReference, account.initialization.kind) =
        (mapping.classReference, mapping.kind) := congrArg Prod.snd hentry
    exact ⟨account, haccount, congrArg Prod.fst hshown, congrArg Prod.snd hshown⟩
  · have hlength := congrArg List.length hmatched.paired
    rw [List.length_map, List.length_map] at hlength
    exact hlength

/-- Under a constant hash: the first account is rejected, then deployed under another proxy
reference; the second one collides before anything is requested. -/
theorem accounts_are_mappings_under_constant_hash :
    let events : List Event :=
      [.call (.setClassReference 2 "proxy" 9), .reject (fun _ => some "full"),
        .call (.resolve 7), .deploy, .reject (fun _ => none),
        .call (.setClassReference 2 "proxy" 10), .call (.resolve 7), .deploy, .call (.resolve 8),
        .deploy]
    let system := (idle (Launched.small fun _ => 5).state .empty).run
      (Launched.small fun _ => 5).wiring events
    system.machine.state.table.mappings = [⟨7, 5, "eoa", 10⟩] ∧
      system.ledger.requests = 2 ∧ system.ledger.size = 1 ∧
      ∃ account, system.ledger.find? 5 = some account ∧ account.classReference = 10 ∧
        account.initialization.kind = "eoa" := by
  intro events system
  have hclosed : (idle (Launched.small fun _ => 5).state .empty).Obeys
      (Launched.small fun _ => 5).wiring Closed events := by
    exact ⟨⟨rfl, by simp⟩, trivial, ⟨rfl, by simp⟩, trivial, trivial, ⟨rfl, by simp⟩,
      ⟨rfl, by simp⟩, trivial, ⟨rfl, by simp⟩, trivial, trivial⟩
  obtain ⟨-, haccounts, hsize, -⟩ :=
    accounts_are_mappings (Launched.create_small fun _ => 5) events hclosed
  refine ⟨by decide, by decide, ?_, ?_⟩
  · rw [hsize]
    decide
  · exact haccounts 7 ⟨7, 5, "eoa", 10⟩ (by decide)

end System

end AccountRegistry
