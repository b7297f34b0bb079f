import AccountRegistry.Host.Ledger
import AccountRegistry.Proofs.Provisioning

/-!
# What the ledger in memory promises

Accounts are only ever added, each at the address of its request and only where there was none
(`reply_eq_deployed`, `accounts_deploy`), so an account that was found once stays as it is
(`find?_deploy`).  A reply that confirms a plan of a registry tells the truth: from then on the
planned address is occupied (`find?_deploy_of_confirms`).
-/

namespace AccountRegistry.Ledger

variable {hash : Hash} {ledger : Ledger} {request : DeployRequest}

/-! ## Replies -/

/-- A request is deployed exactly where the rule lets it pass, the address of the request exists
and nothing lives there. -/
theorem reply_eq_deployed {place : Int} :
    ledger.reply hash request = .deployed place ↔
      ledger.rejection request = none ∧ address hash request = .ok place ∧
        ledger.find? place = none := by
  unfold reply
  cases hrejection : ledger.rejection request with
  | some reason => simp
  | none =>
      cases haddress : address hash request with
      | error fault => simp
      | ok asked =>
          dsimp only
          by_cases hfound : (ledger.find? asked).isSome = true
          · rw [if_pos hfound]
            refine ⟨fun hreply => ?_, ?_⟩
            · split at hreply <;> cases hreply
            · rintro ⟨-, hsame, hfree⟩
              cases hsame
              rw [hfree] at hfound
              cases hfound
          · rw [if_neg hfound]
            have hfree : ledger.find? asked = none := by simpa using hfound
            constructor
            · intro hreply
              cases hreply
              exact ⟨rfl, rfl, hfree⟩
            · rintro ⟨-, hsame, -⟩
              cases hsame
              rfl

/-- The ledger says that an account is there already only where it holds one. -/
theorem find?_of_occupied {fault : Fault} (hreply : ledger.reply hash request = .refused fault)
    (hoccupied : fault.isRefusal (some .alreadyDeployed) = true) :
    ∃ place account, address hash request = .ok place ∧ ledger.find? place = some account := by
  unfold reply at hreply
  split at hreply
  · cases hreply
    simp [rejected, Fault.isRefusal] at hoccupied
  · split at hreply
    · cases hreply
    · rename_i place haddress
      split at hreply
      · rename_i hfound
        obtain ⟨account, haccount⟩ := Option.isSome_iff_exists.mp hfound
        exact ⟨place, account, haddress, haccount⟩
      · cases hreply

/-! ## Accounts -/

theorem address_of_find? {place : Int} {found : DeployedAccount}
    (hfound : ledger.find? place = some found) : found.address = place := by
  simpa using List.find?_some hfound

theorem mem_of_find? {place : Int} {found : DeployedAccount}
    (hfound : ledger.find? place = some found) : found ∈ ledger.accounts :=
  List.mem_of_find?_eq_some hfound

/-- A request that is deployed adds its account in front of the others. -/
theorem accounts_deploy {place : Int} (hreply : ledger.reply hash request = .deployed place) :
    (ledger.deploy hash request).accounts = account request place :: ledger.accounts := by
  unfold deploy
  rw [hreply]

/-- A request that is not deployed leaves the accounts as they are. -/
theorem accounts_deploy_of_ne (hreply : ∀ place, ledger.reply hash request ≠ .deployed place) :
    (ledger.deploy hash request).accounts = ledger.accounts := by
  unfold deploy
  split
  · rename_i place hdeployed
    exact absurd hdeployed (hreply place)
  · rfl

/-- The first account at an address stays as it is, whatever is requested later. -/
theorem find?_deploy {place : Int} {found : DeployedAccount} (hash : Hash)
    (request : DeployRequest) (hfound : ledger.find? place = some found) :
    (ledger.deploy hash request).find? place = some found := by
  unfold find? at hfound ⊢
  by_cases hdeployed : ∃ fresh, ledger.reply hash request = .deployed fresh
  · obtain ⟨fresh, hreply⟩ := hdeployed
    -- nothing is deployed where an account was found
    have hother : fresh ≠ place := by
      rintro rfl
      have hfree := (reply_eq_deployed.mp hreply).2.2
      unfold find? at hfree
      rw [hfound] at hfree
      cases hfree
    have hskipped : decide ((account request fresh).address = place) = false :=
      decide_eq_false hother
    rw [accounts_deploy hreply, List.find?_cons, hskipped]
    exact hfound
  · rw [accounts_deploy_of_ne (not_exists.mp hdeployed)]
    exact hfound

theorem find?_deploy_self {place : Int} (hreply : ledger.reply hash request = .deployed place) :
    (ledger.deploy hash request).find? place = some (account request place) := by
  unfold find?
  rw [accounts_deploy hreply]
  exact List.find?_cons_of_pos (decide_eq_true rfl)

/-! ## Plans of a registry -/

/-- The planned address is the one at which the ledger deploys the request. -/
theorem address_of_derived {deployer : Int} {plan : DeploymentPlan}
    (hderived : plan.Derived hash deployer) :
    address hash plan.request = .ok plan.nativeAddress := by
  unfold address
  rw [hderived.sender, hderived.salt, hderived.arguments]
  exact hderived.native

/-- A request is confirmed in two ways: the account is deployed at the planned address, or one
lives there already. -/
theorem confirms_cases {deployer : Int} {plan : DeploymentPlan}
    (hderived : plan.Derived hash deployer)
    (hconfirms : (ledger.reply hash plan.request).Confirms plan) :
    ledger.reply hash plan.request = .deployed plan.nativeAddress ∨
      ∃ found, ledger.find? plan.nativeAddress = some found := by
  cases hreply : ledger.reply hash plan.request with
  | threw fault =>
      rw [hreply] at hconfirms
      cases hconfirms
  | deployed place =>
      rw [hreply] at hconfirms
      have hplace : place = plan.nativeAddress := hconfirms
      exact .inl (by rw [hplace])
  | refused fault =>
      rw [hreply] at hconfirms
      obtain ⟨place, found, hplace, hfound⟩ := find?_of_occupied hreply hconfirms
      rw [address_of_derived hderived] at hplace
      cases hplace
      exact .inr ⟨found, hfound⟩

/-- What is deployed for a plan of a registry is deployed at the planned address. -/
theorem confirms_of_deployed {deployer place : Int} {plan : DeploymentPlan}
    (hderived : plan.Derived hash deployer)
    (hreply : ledger.reply hash plan.request = .deployed place) :
    (ledger.reply hash plan.request).Confirms plan := by
  have hplace := (reply_eq_deployed.mp hreply).2.1
  rw [address_of_derived hderived] at hplace
  rw [hreply]
  exact (Except.ok.inj hplace).symm

/-- After a reply that confirms a plan, the ledger holds an account at the planned address. -/
theorem find?_deploy_of_confirms {deployer : Int} {plan : DeploymentPlan}
    (hderived : plan.Derived hash deployer)
    (hconfirms : (ledger.reply hash plan.request).Confirms plan) :
    ∃ found, (ledger.deploy hash plan.request).find? plan.nativeAddress = some found := by
  rcases confirms_cases hderived hconfirms with hreply | ⟨found, hfound⟩
  · exact ⟨_, find?_deploy_self hreply⟩
  · exact ⟨found, find?_deploy hash plan.request hfound⟩

end AccountRegistry.Ledger
