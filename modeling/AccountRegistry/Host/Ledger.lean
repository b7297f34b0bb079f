import AccountRegistry.Account
import AccountRegistry.Derivation
import AccountRegistry.Host.Reply

/-!
# The ledger in memory

A host ledger that deploys each account at the address of its request.  An address is deployed
once: the first account stays as it is, and later requests for its address are refused.  Requests
can be rejected by a rule, which comes before everything else.
-/

namespace AccountRegistry

/-- Why a request is rejected, if it is. -/
abbrev Rejection := DeployRequest → Option String

/-- A ledger: its accounts, the latest first, its rule, and how many requests it has seen. -/
structure Ledger where
  accounts : List DeployedAccount
  rejection : Rejection
  requests : Nat

namespace Ledger

/-- A ledger without accounts that rejects nothing. -/
def empty : Ledger := ⟨[], fun _ => none, 0⟩

instance : Inhabited Ledger := ⟨empty⟩

/-- The account at an address. -/
def find? (ledger : Ledger) (address : Int) : Option DeployedAccount :=
  ledger.accounts.find? fun account => account.address = address

/-- How many accounts there are. -/
def size (ledger : Ledger) : Nat :=
  ledger.accounts.length

/-- The ledger with another rule. -/
def withRejection (ledger : Ledger) (rejection : Rejection) : Ledger :=
  { ledger with rejection := rejection }

/-- The address that a request is deployed at. -/
def address (hash : Hash) (request : DeployRequest) : Except Fault Int :=
  Derivation.contractAddress hash request.deployer request.salt request.classReference
    request.constructorArgs

/-- The account that a request asks for. -/
def account (request : DeployRequest) (address : Int) : DeployedAccount :=
  ⟨address, request.classReference, request.initialization⟩

/-- The fault of a request that the rule rejects. -/
def rejected (request : DeployRequest) (reason : String) : Fault :=
  .registry .deploymentFailed reason (.record [("salt", .text (Digits.decimal request.salt))])

/-- The fault of a request for an occupied address. -/
def occupied (address : Int) : Except Fault Fault := do
  let text ← Address.formatNative address
  return .refusal .alreadyDeployed [("address", .text text)]

/-- The reply to a request, without its effect. -/
def reply (hash : Hash) (ledger : Ledger) (request : DeployRequest) : HostReply :=
  match ledger.rejection request with
  | some reason => .refused (rejected request reason)
  | none =>
      match address hash request with
      | .error fault => .threw fault
      | .ok place =>
          if (ledger.find? place).isSome then
            match occupied place with
            | .ok fault => .refused fault
            | .error fault => .threw fault
          else .deployed place

/-- The ledger after a request: it has seen one more, and holds a new account if the reply says
so. -/
def deploy (hash : Hash) (ledger : Ledger) (request : DeployRequest) : Ledger :=
  match ledger.reply hash request with
  | .deployed place =>
      { ledger with
        accounts := account request place :: ledger.accounts, requests := ledger.requests + 1 }
  | _ => { ledger with requests := ledger.requests + 1 }

theorem requests_deploy (hash : Hash) (ledger : Ledger) (request : DeployRequest) :
    (ledger.deploy hash request).requests = ledger.requests + 1 := by
  unfold deploy
  split <;> rfl

theorem rejection_deploy (hash : Hash) (ledger : Ledger) (request : DeployRequest) :
    (ledger.deploy hash request).rejection = ledger.rejection := by
  unfold deploy
  split <;> rfl

theorem find?_withRejection (ledger : Ledger) (rejection : Rejection) (address : Int) :
    (ledger.withRejection rejection).find? address = ledger.find? address := rfl

end Ledger

end AccountRegistry
