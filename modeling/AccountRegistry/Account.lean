/-!
# Accounts

The nouns of the registry: kinds of account class, deployments as they are requested and as the
ledger holds them, and the mappings that tie EVM addresses to native accounts.
-/

namespace AccountRegistry

/-- The kinds that a class reference is kept for. -/
inductive ClassKind where
  | precompile
  | contractAccount
  | eoa
  | proxy
  deriving DecidableEq, Repr, Inhabited

namespace ClassKind

/-- Every kind, in the order in which they are configured. -/
def all : List ClassKind :=
  [.precompile, .contractAccount, .eoa, .proxy]

theorem mem_all (kind : ClassKind) : kind ∈ all := by
  cases kind <;> decide

/-- The name of a kind. -/
def label : ClassKind → String
  | .precompile => "precompile"
  | .contractAccount => "contract-account"
  | .eoa => "eoa"
  | .proxy => "proxy"

/-- The key of a kind in a registry spec. -/
def specKey : ClassKind → String
  | .precompile => "precompile"
  | .contractAccount => "contract_account"
  | .eoa => "eoa"
  | .proxy => "proxy"

/-- The kind with a name. -/
def ofLabel? (label : String) : Option ClassKind :=
  all.find? fun kind => kind.label = label

@[simp] theorem ofLabel?_label (kind : ClassKind) : ofLabel? kind.label = some kind := by
  cases kind <;> rfl

end ClassKind

/-- What a new account is started with.  The kind is a name: the registry asks for `eoa` and
`contract-account`, and a ledger may hold accounts of others. -/
structure Initialization where
  kind : String
  implementation : Option Int
  bytecode : String
  deriving DecidableEq, Repr, Inhabited

/-- A request to the host ledger. -/
structure DeployRequest where
  classReference : Int
  constructorArgs : List Int
  salt : Int
  deployer : Int
  initialization : Initialization
  deriving DecidableEq, Repr, Inhabited

/-- An account on the host ledger. -/
structure DeployedAccount where
  address : Int
  classReference : Int
  initialization : Initialization
  deriving DecidableEq, Repr, Inhabited

/-- The record that ties an EVM address to its native account. -/
structure Mapping where
  evmAddress : Int
  nativeAddress : Int
  kind : String
  classReference : Int
  deriving DecidableEq, Repr, Inhabited

/-- What is needed to deploy the account of an EVM address, computed before the ledger is asked.
-/
structure DeploymentPlan where
  evmAddress : Int
  nativeAddress : Int
  request : DeployRequest
  deriving DecidableEq, Repr, Inhabited

/-- What a deployment came to; `alreadyDeployed` if the ledger held the account before. -/
structure DeploymentOutcome where
  nativeAddress : Int
  alreadyDeployed : Bool
  deriving DecidableEq, Repr, Inhabited

/-- A class reference with the number of times its kind was set. -/
structure VersionedReference where
  kind : ClassKind
  reference : Int
  version : Nat
  deriving DecidableEq, Repr, Inhabited

/-- The block context with the number of times it was set. -/
structure ChainContext where
  coinbase : Int
  baseFee : Int
  version : Nat
  deriving DecidableEq, Repr, Inhabited

end AccountRegistry
