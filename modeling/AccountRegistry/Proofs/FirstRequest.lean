import AccountRegistry.Proofs.Completion
import AccountRegistry.Proofs.Preimages

/-!
# The first request for an address

Requests are made on the ledger in memory one after the other, and its rule may change between any
two of them.  Several requests can be for one address, and they may ask for different accounts.

* `replies`: the replies to a request, each with the condition under which it is given.
* `Holds`, with `Holds.step` and `Holds.run`: the invariant, and that every history keeps it.  The
  accounts are those of the first requests for their addresses among the requests that the rule let
  pass.
* `first_request_wins`: what the invariant says about every history of a new ledger.
-/

namespace AccountRegistry

namespace DeployRequest

/-- The integers of a request that its address is made from. -/
def words (request : DeployRequest) : List Int :=
  request.deployer :: request.salt :: request.classReference :: request.constructorArgs

/-- Every integer that the address is made from fits in a word. -/
def Encodable (request : DeployRequest) : Prop :=
  ∀ value ∈ request.words, 0 ≤ value ∧ value < 2 ^ 256

instance (request : DeployRequest) : Decidable request.Encodable :=
  inferInstanceAs (Decidable (∀ value ∈ request.words, 0 ≤ value ∧ value < 2 ^ 256))

end DeployRequest

/-- Whether an account was deployed. -/
def HostReply.isDeployed : HostReply → Bool
  | .deployed _ => true
  | _ => false

namespace Derivation

/-! ## Integers without a word -/

theorem word_eq_error {value : Int} {fault : Fault} (hword : word value = .error fault) :
    ¬(0 ≤ value ∧ value < 2 ^ 256) ∧ fault = .wordRange value := by
  refine ⟨word_fails_iff.mp ⟨fault, hword⟩, ?_⟩
  unfold word at hword
  split at hword
  · cases hword
  · exact (Except.error.inj hword).symm

theorem wordsOf_eq_error {values : List Int} {fault : Fault}
    (hwords : wordsOf values = .error fault) :
    ∃ value ∈ values, ¬(0 ≤ value ∧ value < 2 ^ 256) ∧ fault = .wordRange value := by
  induction values with
  | nil => cases hwords
  | cons value rest ih =>
      rcases except_bind_eq_error.mp hwords with hword | ⟨first, -, hothers⟩
      · exact ⟨value, List.mem_cons_self, word_eq_error hword⟩
      · rcases except_bind_eq_error.mp hothers with hrest | ⟨others, -, hend⟩
        · obtain ⟨found, hmem, hfound⟩ := ih hrest
          exact ⟨found, List.mem_cons_of_mem value hmem, hfound⟩
        · cases hend

theorem range_of_word {value : Int} {found : Word} (hword : word value = .ok found) :
    0 ≤ value ∧ value < 2 ^ 256 := by
  by_contra hrange
  obtain ⟨fault, hfault⟩ := word_fails_iff.mpr hrange
  cases hfault.symm.trans hword

theorem range_of_wordsOf {values : List Int} {words : List Word}
    (hwords : wordsOf values = .ok words) : ∀ value ∈ values, 0 ≤ value ∧ value < 2 ^ 256 := by
  intro value hmem
  rw [wordsOf_eq_ok.mp hwords, List.mem_map] at hmem
  obtain ⟨found, -, rfl⟩ := hmem
  exact range_of_word (word_eq_ok.mpr rfl)

end Derivation

namespace Ledger

open AccountRegistry.Derivation

variable {hash : Hash} {ledger : Ledger} {request : DeployRequest} {place : Int}

/-! ## Replies -/

/-- A request without an address has an integer that does not fit in a word. -/
theorem address_eq_error {fault : Fault} (haddress : address hash request = .error fault) :
    ∃ value ∈ request.words, ¬(0 ≤ value ∧ value < 2 ^ 256) ∧ fault = .wordRange value := by
  unfold DeployRequest.words
  rcases except_bind_eq_error.mp haddress with hdeployer | ⟨_, -, haddress⟩
  · exact ⟨_, by simp, word_eq_error hdeployer⟩
  rcases except_bind_eq_error.mp haddress with hsalt | ⟨_, -, haddress⟩
  · exact ⟨_, by simp, word_eq_error hsalt⟩
  rcases except_bind_eq_error.mp haddress with hclass | ⟨_, -, haddress⟩
  · exact ⟨_, by simp, word_eq_error hclass⟩
  rcases except_bind_eq_error.mp haddress with hdigest | ⟨_, -, hend⟩
  · rcases except_bind_eq_error.mp hdigest with harguments | ⟨_, -, hend⟩
    · obtain ⟨value, hmem, hvalue⟩ := wordsOf_eq_error harguments
      exact ⟨value, by simp [hmem], hvalue⟩
    · cases hend
  · cases hend

/-- A request has an address exactly if its integers fit in words. -/
theorem exists_address_iff :
    (∃ place, address hash request = .ok place) ↔ request.Encodable := by
  constructor
  · rintro ⟨place, hplace⟩
    obtain ⟨_, hdeployer, hplace⟩ := except_bind_eq_ok.mp hplace
    obtain ⟨_, hsalt, hplace⟩ := except_bind_eq_ok.mp hplace
    obtain ⟨_, hclass, hplace⟩ := except_bind_eq_ok.mp hplace
    obtain ⟨_, hdigest, -⟩ := except_bind_eq_ok.mp hplace
    obtain ⟨words, hwords, -⟩ := except_bind_eq_ok.mp hdigest
    unfold DeployRequest.Encodable DeployRequest.words
    simp only [List.forall_mem_cons]
    exact ⟨range_of_word hdeployer, range_of_word hsalt, range_of_word hclass,
      range_of_wordsOf hwords⟩
  · intro hencodable
    obtain ⟨bytes, hbytes⟩ := exists_addressBytes hash hencodable
    exact ⟨_, contractAddress_of_addressBytes hbytes⟩

/-- How a ledger replies to a request, in the order in which the cases are decided: the rule comes
before the address, and the address before the account. -/
inductive Replies (hash : Hash) (ledger : Ledger) (request : DeployRequest) : HostReply → Prop
  | rejected {reason : String} (hrejected : ledger.rejection request = some reason) :
      Replies hash ledger request (.refused (rejected request reason))
  | unencodable {value : Int} (hpassed : ledger.rejection request = none)
      (hmem : value ∈ request.words) (hrange : ¬(0 ≤ value ∧ value < 2 ^ 256)) :
      Replies hash ledger request (.threw (.wordRange value))
  | occupied {place : Int} {found : DeployedAccount} {text : String}
      (hpassed : ledger.rejection request = none) (hplace : address hash request = .ok place)
      (hfound : ledger.find? place = some found) (htext : Address.formatNative place = .ok text) :
      Replies hash ledger request (.refused (.refusal .alreadyDeployed [("address", .text text)]))
  | deployed {place : Int} (hpassed : ledger.rejection request = none)
      (hplace : address hash request = .ok place) (hfree : ledger.find? place = none) :
      Replies hash ledger request (.deployed place)

/-- The reply to a request. -/
theorem replies (hash : Hash) (ledger : Ledger) (request : DeployRequest) :
    Replies hash ledger request (ledger.reply hash request) := by
  cases hrule : ledger.rejection request with
  | some reason =>
      rw [reply_of_rejected hrule]
      exact .rejected hrule
  | none =>
      cases haddress : address hash request with
      | error fault =>
          obtain ⟨value, hmem, hrange, rfl⟩ := address_eq_error haddress
          have hthrew : ledger.reply hash request = .threw (.wordRange value) := by
            simp only [reply, hrule, haddress]
          rw [hthrew]
          exact .unencodable hrule hmem hrange
      | ok place =>
          cases hfound : ledger.find? place with
          | none =>
              rw [reply_eq_deployed.mpr ⟨hrule, haddress, hfound⟩]
              exact .deployed hrule haddress hfound
          | some found =>
              -- an address is a digest below the bound, so it has a written form
              obtain ⟨text, htext⟩ := (contractAddress_isNative haddress).formatNative
              have hoccupied : ledger.reply hash request =
                  .refused (.refusal .alreadyDeployed [("address", .text text)]) := by
                simp only [reply, hrule, haddress, hfound, occupied, htext]
                rfl
              rw [hoccupied]
              exact .occupied hrule haddress hfound htext

/-- A request is deployed somewhere exactly if the rule lets it pass, its integers fit in words and
nothing lives at its address. -/
theorem exists_reply_iff :
    (∃ place, ledger.reply hash request = .deployed place) ↔
      ledger.rejection request = none ∧ request.Encodable ∧
        ∀ place, address hash request = .ok place → ledger.find? place = none := by
  constructor
  · rintro ⟨place, hreply⟩
    obtain ⟨hrule, hplace, hfree⟩ := reply_eq_deployed.mp hreply
    refine ⟨hrule, exists_address_iff.mp ⟨place, hplace⟩, fun other hother => ?_⟩
    cases hplace.symm.trans hother
    exact hfree
  · rintro ⟨hrule, hencodable, hfree⟩
    obtain ⟨place, hplace⟩ := exists_address_iff.mpr hencodable
    exact ⟨place, reply_eq_deployed.mpr ⟨hrule, hplace, hfree place hplace⟩⟩

/-- A request changes nothing at an address where it is not deployed. -/
theorem find?_deploy_of_ne (hreply : ledger.reply hash request ≠ .deployed place) :
    (ledger.deploy hash request).find? place = ledger.find? place := by
  by_cases hdeployed : ∃ fresh, ledger.reply hash request = .deployed fresh
  · obtain ⟨fresh, hfresh⟩ := hdeployed
    have hother : fresh ≠ place := by
      rintro rfl
      exact hreply hfresh
    have hskipped : decide ((account request fresh).address = place) = false :=
      decide_eq_false hother
    rw [find?, accounts_deploy hfresh, List.find?_cons, hskipped]
    rfl
  · rw [find?, accounts_deploy_of_ne (not_exists.mp hdeployed)]
    rfl

/-! ## Histories -/

/-- What can happen to a ledger.

* `request`: a request is made.
* `disturbed`: a request is made, and the rule throws at it.
* `reject`: the ledger gets another rule. -/
inductive Event where
  | request (request : DeployRequest)
  | disturbed (fault : Fault)
  | reject (rejection : Rejection)

/-- Whether a request is made. -/
def Event.isRequest : Event → Bool
  | .reject _ => false
  | _ => true

/-- The ledger after an event. -/
def step (hash : Hash) (ledger : Ledger) : Event → Ledger
  | .request request => ledger.deploy hash request
  | .disturbed _ => ledger.counted
  | .reject rejection => ledger.withRejection rejection

/-- What is replied to the request of an event. -/
def stepReply (hash : Hash) (ledger : Ledger) : Event → Option HostReply
  | .request request => some (ledger.reply hash request)
  | .disturbed fault => some (.threw fault)
  | .reject _ => none

/-- The ledger after a history. -/
def run (hash : Hash) : Ledger → List Event → Ledger
  | ledger, [] => ledger
  | ledger, event :: rest => run hash (ledger.step hash event) rest

/-- The replies to the requests of a history. -/
def runReplies (hash : Hash) : Ledger → List Event → List HostReply
  | _, [] => []
  | ledger, event :: rest =>
      (ledger.stepReply hash event).toList ++ runReplies hash (ledger.step hash event) rest

/-- The requests of a history that the rule let pass when they were made, where a rule stands at the
beginning. -/
def passed : Rejection → List Event → List DeployRequest
  | _, [] => []
  | rule, .request request :: rest =>
      if rule request = none then request :: passed rule rest else passed rule rest
  | rule, .disturbed _ :: rest => passed rule rest
  | _, .reject rule :: rest => passed rule rest

/-- The rule after a history, where a rule stands at the beginning. -/
def ruleAfter : Rejection → List Event → Rejection
  | rule, [] => rule
  | _, .reject rule :: rest => ruleAfter rule rest
  | rule, _ :: rest => ruleAfter rule rest

/-- The first request of a list for an address. -/
def FirstFor (hash : Hash) (requests : List DeployRequest) (place : Int)
    (first : DeployRequest) : Prop :=
  ∃ before after, requests = before ++ first :: after ∧ address hash first = .ok place ∧
    ∀ earlier ∈ before, address hash earlier ≠ .ok place

section FirstFor

variable {requests : List DeployRequest} {first : DeployRequest}

theorem exists_firstFor (hmem : request ∈ requests) (hplace : address hash request = .ok place) :
    ∃ first, FirstFor hash requests place first := by
  induction requests with
  | nil => cases hmem
  | cons head rest ih =>
      by_cases hhead : address hash head = .ok place
      · exact ⟨head, [], rest, rfl, hhead, nofun⟩
      · have hrest : request ∈ rest := by
          rcases List.mem_cons.mp hmem with rfl | hrest
          · exact absurd hplace hhead
          · exact hrest
        obtain ⟨first, before, after, rfl, hfirst, hbefore⟩ := ih hrest
        exact ⟨first, head :: before, after, rfl, hfirst, List.forall_mem_cons.mpr ⟨hhead, hbefore⟩⟩

/-- A request that is added at the end is the first one for its address if there was none, and
takes nothing from the first one if there was one. -/
theorem firstFor_append_singleton :
    FirstFor hash (requests ++ [request]) place first ↔
      FirstFor hash requests place first ∨
        first = request ∧ address hash request = .ok place ∧
          ∀ earlier ∈ requests, address hash earlier ≠ .ok place := by
  constructor
  · rintro ⟨before, after, hsplit, hplace, hbefore⟩
    rcases List.eq_nil_or_concat after with rfl | ⟨middle, last, rfl⟩
    · obtain ⟨rfl, hlast⟩ := List.append_inj' hsplit rfl
      cases hlast
      exact .inr ⟨rfl, hplace, hbefore⟩
    · have hregroup : requests ++ [request] = (before ++ first :: middle) ++ [last] := by
        simpa using hsplit
      obtain ⟨rfl, -⟩ := List.append_inj' hregroup rfl
      exact .inl ⟨before, middle, rfl, hplace, hbefore⟩
  · rintro (⟨before, after, rfl, hplace, hbefore⟩ | ⟨rfl, hplace, hnone⟩)
    · exact ⟨before, after ++ [request], by simp, hplace, hbefore⟩
    · exact ⟨requests, [], rfl, hplace, hnone⟩

end FirstFor

/-! ## What every history keeps -/

/-- A ledger holds what was asked for first at each address, and at each address one account. -/
structure Holds (hash : Hash) (requests : List DeployRequest) (ledger : Ledger) : Prop where
  found : ∀ place account, ledger.find? place = some account ↔
    ∃ first, FirstFor hash requests place first ∧ account = Ledger.account first place
  distinct : (ledger.accounts.map DeployedAccount.address).Nodup

namespace Holds

variable {requests : List DeployRequest}

theorem empty (hash : Hash) : Holds hash [] .empty where
  found := by
    intro place account
    constructor
    · intro hfound
      cases hfound
    · rintro ⟨first, ⟨before, after, hsplit, -⟩, -⟩
      simp at hsplit
  distinct := List.nodup_nil

theorem congr (hholds : Holds hash requests ledger) {other : Ledger}
    (haccounts : other.accounts = ledger.accounts) : Holds hash requests other where
  found := by
    intro place account
    rw [← hholds.found place account, find?, find?, haccounts]
  distinct := by
    rw [haccounts]
    exact hholds.distinct

/-- Nothing lives at an address that nobody asked for. -/
theorem find?_eq_none (hholds : Holds hash requests ledger) :
    ledger.find? place = none ↔ ∀ earlier ∈ requests, address hash earlier ≠ .ok place := by
  constructor
  · intro hnone earlier hmem hplace
    obtain ⟨first, hfirst⟩ := exists_firstFor hmem hplace
    rw [(hholds.found place _).mpr ⟨first, hfirst, rfl⟩] at hnone
    cases hnone
  · intro hunasked
    rw [Option.eq_none_iff_forall_ne_some]
    intro account hfound
    obtain ⟨first, ⟨before, after, rfl, hplace, -⟩, -⟩ := (hholds.found place account).mp hfound
    exact hunasked first (by simp) hplace

/-- A request that the rule lets pass is the first one for an address exactly if it is deployed
there. -/
theorem firstFor_pass (hholds : Holds hash requests ledger)
    (hpassed : ledger.rejection request = none) {first : DeployRequest} :
    FirstFor hash (requests ++ [request]) place first ↔
      FirstFor hash requests place first ∨
        first = request ∧ ledger.reply hash request = .deployed place := by
  rw [firstFor_append_singleton, reply_eq_deployed, hholds.find?_eq_none]
  simp only [hpassed, true_and]

/-- What the rule lets pass is held if it is the first request for its address, and otherwise it
changes nothing. -/
theorem pass (hholds : Holds hash requests ledger)
    (hpassed : ledger.rejection request = none) :
    Holds hash (requests ++ [request]) (ledger.deploy hash request) where
  found := by
    intro place account
    by_cases hreply : ledger.reply hash request = .deployed place
    · have hunasked := hholds.find?_eq_none.mp (reply_eq_deployed.mp hreply).2.2
      rw [find?_deploy_self hreply]
      constructor
      · intro hfound
        cases hfound
        exact ⟨request, (hholds.firstFor_pass hpassed).mpr (.inr ⟨rfl, hreply⟩), rfl⟩
      · rintro ⟨first, hfirst, rfl⟩
        rcases (hholds.firstFor_pass hpassed).mp hfirst with
          ⟨before, after, rfl, hother, -⟩ | ⟨rfl, -⟩
        · exact absurd hother (hunasked first (by simp))
        · rfl
    · rw [find?_deploy_of_ne hreply, hholds.found]
      simp only [hholds.firstFor_pass hpassed, hreply, and_false, or_false]
  distinct := by
    by_cases hdeployed : ∃ place, ledger.reply hash request = .deployed place
    · obtain ⟨place, hreply⟩ := hdeployed
      rw [accounts_deploy hreply, List.map_cons, List.nodup_cons]
      refine ⟨fun hmem => ?_, hholds.distinct⟩
      obtain ⟨account, haccount, hplace⟩ := List.mem_map.mp hmem
      have hfree := List.find?_eq_none.mp (reply_eq_deployed.mp hreply).2.2 account haccount
      exact hfree (decide_eq_true hplace)
    · rw [accounts_deploy_of_ne (not_exists.mp hdeployed)]
      exact hholds.distinct

/-- Every account is found at its address. -/
theorem mem_accounts (hholds : Holds hash requests ledger) {account : DeployedAccount} :
    account ∈ ledger.accounts ↔ ledger.find? account.address = some account := by
  constructor
  · intro hmem
    obtain ⟨before, after, hsplit⟩ := List.append_of_mem hmem
    refine List.find?_eq_some_iff_append.mpr ⟨by simp, before, after, hsplit, ?_⟩
    intro earlier hearlier
    have hdistinct := hholds.distinct
    rw [hsplit, List.map_append, List.map_cons] at hdistinct
    have hother := (List.nodup_append.mp hdistinct).2.2 earlier.address
      (List.mem_map_of_mem hearlier) account.address List.mem_cons_self
    simpa using hother
  · exact mem_of_find?

/-- An event adds the request that its rule lets pass, if it makes one. -/
theorem step (hholds : Holds hash requests ledger) (event : Event) :
    Holds hash (requests ++ passed ledger.rejection [event]) (ledger.step hash event) := by
  cases event with
  | request request =>
      cases hrule : ledger.rejection request with
      | none =>
          simp only [passed, hrule, if_true]
          exact hholds.pass hrule
      | some reason =>
          simp only [passed, hrule, reduceCtorEq, if_false, List.append_nil]
          refine hholds.congr ?_
          rw [Ledger.step, deploy_of_rejected hrule]
          rfl
  | disturbed fault =>
      rw [passed, passed, List.append_nil]
      exact hholds.congr rfl
  | reject rejection =>
      rw [passed, passed, List.append_nil]
      exact hholds.congr rfl

end Holds

/-- The rule of an event is the one that stands for the events after it. -/
theorem passed_cons (hash : Hash) (ledger : Ledger) (event : Event) (rest : List Event) :
    passed ledger.rejection (event :: rest) =
      passed ledger.rejection [event] ++ passed (ledger.step hash event).rejection rest := by
  cases event with
  | request request =>
      rw [step, rejection_deploy]
      by_cases hrule : ledger.rejection request = none
      · simp [passed, hrule]
      · simp [passed, hrule]
  | disturbed fault => rfl
  | reject rejection => rfl

/-- Every history adds the requests that its rules let pass. -/
theorem Holds.run {requests : List DeployRequest} (hholds : Holds hash requests ledger)
    (events : List Event) :
    Holds hash (requests ++ passed ledger.rejection events) (ledger.run hash events) := by
  induction events generalizing requests ledger with
  | nil => simpa [passed, Ledger.run] using hholds
  | cons event rest ih =>
      rw [passed_cons hash, ← List.append_assoc]
      exact ih (hholds.step event)

/-! ## What later events leave alone -/

/-- A request that is not deployed leaves every account as it is. -/
theorem accounts_step_of_not_deployed {event : Event}
    (hreply : ∀ place, ledger.stepReply hash event ≠ some (.deployed place)) :
    (ledger.step hash event).accounts = ledger.accounts := by
  cases event with
  | request request =>
      refine accounts_deploy_of_ne fun place hplace => hreply place ?_
      rw [stepReply, hplace]
  | disturbed fault => rfl
  | reject rejection => rfl

/-- An account that lives at an address stays there as it is. -/
theorem find?_run {found : DeployedAccount} (hfound : ledger.find? place = some found)
    (events : List Event) : (ledger.run hash events).find? place = some found := by
  induction events generalizing ledger with
  | nil => exact hfound
  | cons event rest ih =>
      refine ih ?_
      cases event with
      | request request => exact find?_deploy hash request hfound
      | disturbed fault => exact hfound
      | reject rejection => exact hfound

/-! ## Counters -/

/-- The number of requests in a history is added to those that were seen before. -/
theorem requests_run (hash : Hash) (ledger : Ledger) (events : List Event) :
    (ledger.run hash events).requests = ledger.requests + events.countP Event.isRequest := by
  induction events generalizing ledger with
  | nil => rfl
  | cons event rest ih =>
      rw [run, ih, List.countP_cons]
      cases event with
      | request request =>
          rw [step, requests_deploy]
          simp [Event.isRequest]
          omega
      | disturbed fault =>
          simp [step, counted, Event.isRequest]
          omega
      | reject rejection => simp [step, withRejection, Event.isRequest]

theorem size_deploy (hash : Hash) (ledger : Ledger) (request : DeployRequest) :
    (ledger.deploy hash request).size =
      ledger.size + [ledger.reply hash request].countP HostReply.isDeployed := by
  cases hreply : ledger.reply hash request with
  | deployed place =>
      rw [size, accounts_deploy hreply]
      rfl
  | refused fault =>
      rw [size, accounts_deploy_of_ne (by simp [hreply])]
      rfl
  | threw fault =>
      rw [size, accounts_deploy_of_ne (by simp [hreply])]
      rfl

/-- The number of requests that were deployed in a history is added to the number of accounts. -/
theorem size_run (hash : Hash) (ledger : Ledger) (events : List Event) :
    (ledger.run hash events).size =
      ledger.size + (runReplies hash ledger events).countP HostReply.isDeployed := by
  induction events generalizing ledger with
  | nil => rfl
  | cons event rest ih =>
      rw [run, ih, runReplies, List.countP_append, ← Nat.add_assoc]
      congr 1
      cases event with
      | request request => exact size_deploy hash ledger request
      | disturbed fault => rfl
      | reject rejection => rfl

theorem rejection_run (hash : Hash) (ledger : Ledger) (events : List Event) :
    (ledger.run hash events).rejection = ruleAfter ledger.rejection events := by
  induction events generalizing ledger with
  | nil => rfl
  | cons event rest ih =>
      rw [run, ih]
      cases event with
      | request request =>
          exact congrArg (ruleAfter · rest) (rejection_deploy hash ledger request)
      | disturbed fault => rfl
      | reject rejection => rfl

/-! ## The law of the ledger -/

/-- After every history of a new ledger, the account at an address is the one of the first request
for this address that the rule let pass when it was made.  A request is deployed, and then at its
address, exactly if the rule lets it pass, its integers fit in words and nothing lives at its
address; any other event leaves the accounts as they are, and whatever happens later an account
stays as it is.  The ledger counts its requests, and its accounts are as many as the requests that
were deployed. -/
theorem first_request_wins (hash : Hash) (events : List Event) :
    let ledger := run hash .empty events
    (∀ place account, ledger.find? place = some account ↔
      ∃ first, FirstFor hash (passed (fun _ => none) events) place first ∧
        account = Ledger.account first place) ∧
    (∀ account, account ∈ ledger.accounts ↔ ledger.find? account.address = some account) ∧
    (∀ request, Replies hash ledger request (ledger.reply hash request) ∧
      (∀ place, ledger.reply hash request = .deployed place →
        address hash request = .ok place) ∧
      ((∃ place, ledger.reply hash request = .deployed place) ↔
        ruleAfter (fun _ => none) events request = none ∧ request.Encodable ∧
          ∀ place, address hash request = .ok place → ledger.find? place = none)) ∧
    (∀ event, (∀ place, ledger.stepReply hash event ≠ some (.deployed place)) →
      (ledger.step hash event).accounts = ledger.accounts) ∧
    (∀ later place account, ledger.find? place = some account →
      (ledger.run hash later).find? place = some account) ∧
    ledger.requests = events.countP Event.isRequest ∧
    ledger.size = (runReplies hash .empty events).countP HostReply.isDeployed := by
  intro ledger
  have hholds : Holds hash (passed (fun _ => none) events) ledger := (Holds.empty hash).run events
  have hrule : ledger.rejection = ruleAfter (fun _ => none) events :=
    rejection_run hash .empty events
  have hrequests := requests_run hash .empty events
  have hsize := size_run hash .empty events
  refine ⟨hholds.found, fun _ => hholds.mem_accounts, fun request => ⟨replies hash ledger request,
    fun _ hreply => (reply_eq_deployed.mp hreply).2.1, ?_⟩,
    fun _ => accounts_step_of_not_deployed, fun later _ _ hfound => find?_run hfound later, ?_, ?_⟩
  · rw [← hrule]
    exact exists_reply_iff
  · exact hrequests.trans (Nat.zero_add _)
  · exact hsize.trans (Nat.zero_add _)

/-- Under the hash that reads the last word, three requests are for the address 5.  The first one is
rejected, so the account is that of the second; the third one, which the rule would have rejected
before, finds the address occupied, and the last one has an address for no word. -/
theorem first_request_wins_after_rejection :
    let asking (salt : Int) (kind : String) : DeployRequest := ⟨9, [5], salt, 1, ⟨kind, none, "0x"⟩⟩
    let events : List Event := [.reject fun request => if request.salt = 1 then some "no" else none,
      .request (asking 1 "eoa"), .request (asking 2 "contract-account"), .reject fun _ => none,
      .request (asking 1 "eoa"), .request (asking (-1) "eoa")]
    let ledger := run Word.ofBytes .empty events
    ledger.find? 5 = some ⟨5, 9, ⟨"contract-account", none, "0x"⟩⟩ ∧
      (∀ place, ledger.reply Word.ofBytes (asking 3 "eoa") ≠ .deployed place) ∧
      (∃ place, ledger.reply Word.ofBytes ⟨9, [6], 3, 1, ⟨"eoa", none, "0x"⟩⟩ = .deployed place) ∧
      ledger.requests = 4 ∧ ledger.size = 1 := by
  intro asking events ledger
  obtain ⟨hfound, -, hreplies, -, -, hrequests, hsize⟩ := first_request_wins Word.ofBytes events
  have hoccupied : ledger.find? 5 = some ⟨5, 9, ⟨"contract-account", none, "0x"⟩⟩ :=
    (hfound 5 _).mpr ⟨asking 2 "contract-account", ⟨[], [asking 1 "eoa", asking (-1) "eoa"], rfl,
      except_eq_ok_of_toOption (by decide +kernel), nofun⟩, rfl⟩
  refine ⟨hoccupied, fun place hreply => ?_, ?_, hrequests, hsize.trans (by decide +kernel)⟩
  · have hplace : address Word.ofBytes (asking 3 "eoa") = .ok 5 :=
      except_eq_ok_of_toOption (by decide +kernel)
    have hfree := ((hreplies (asking 3 "eoa")).2.2.mp ⟨place, hreply⟩).2.2 5 hplace
    cases hoccupied.symm.trans hfree
  · refine (hreplies _).2.2.mpr ⟨rfl, by decide, fun place hplace => ?_⟩
    have hsix : place = 6 :=
      Except.ok.inj (hplace.symm.trans (except_eq_ok_of_toOption (by decide +kernel)))
    rw [hsix]
    decide +kernel

end Ledger

end AccountRegistry
