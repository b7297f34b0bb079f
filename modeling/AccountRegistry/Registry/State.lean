import AccountRegistry.Procedure
import AccountRegistry.Address
import AccountRegistry.Lifecycle
import AccountRegistry.Registry.AddressTable
import AccountRegistry.Registry.ClassReferences
import AccountRegistry.Spec.Basic

/-!
# The state of a registry

Its fixed identity, the services it is made of, and the state that its operations read and
change.
-/

namespace AccountRegistry

/-- Who a registry is: its network, its own native address and the owner it starts with. -/
structure Identity where
  id : String
  chainId : Int
  deployer : Int
  initialOwner : Int
  deriving DecidableEq, Repr, Inhabited

/-- Addresses that take the place of those of the spec. -/
structure Overrides where
  deployer : Option Int
  owner : Option Int
  deriving DecidableEq, Repr, Inhabited

/-- The fault of an identity with an address out of range. -/
def Identity.outOfRange (field : String) (value : Int) : Fault :=
  .refusal .invalidNativeAddress
    [("field", .text field), ("value", .text (Digits.decimal value))]

/-- The identity that a spec gives a registry under overrides. -/
def Identity.ofSpec (spec : Spec) (overrides : Overrides) : Except Fault Identity :=
  let deployer := overrides.deployer.getD spec.deployer
  let owner := overrides.owner.getD spec.owner
  if ¬ Address.IsNative deployer then .error (outOfRange "deployer" deployer)
  else if ¬ Address.IsNative owner then .error (outOfRange "owner" owner)
  else .ok ⟨spec.id, spec.chainId, deployer, owner⟩

/-- The services of a registry, in the order in which they are registered. -/
inductive ServiceId where
  | identity
  | ownership
  | classReferences
  | nativeToken
  | chainContext
  | provisioning
  | addressRegistry
  | genesis
  deriving DecidableEq, Repr, Inhabited

/-- The name of a service. -/
def ServiceId.label : ServiceId → String
  | .identity => "registry-config"
  | .ownership => "ownership-service"
  | .classReferences => "class-reference-service"
  | .nativeToken => "native-token-service"
  | .chainContext => "chain-context-service"
  | .provisioning => "account-provisioning-service"
  | .addressRegistry => "address-registry-service"
  | .genesis => "genesis-manager"

/-- The services without the one that applies the genesis configuration. -/
def ServiceId.standing : List ServiceId :=
  [.identity, .ownership, .classReferences, .nativeToken, .chainContext, .provisioning,
   .addressRegistry]

/-- Every service. -/
def ServiceId.all : List ServiceId :=
  ServiceId.standing ++ [.genesis]

/-- What the operations of a registry read and change.  The services that were initialized and
those that run are listed in the order of `ServiceId.all`. -/
structure State where
  owner : Int
  references : ClassReferences
  nativeToken : Option Int
  context : Option ChainContext
  table : AddressTable
  code : List (Int × String)
  initialized : List ServiceId
  running : List ServiceId
  deriving DecidableEq, Repr, Inhabited

namespace State

/-- The state of new services. -/
def initial (owner : Int) (code : List (Int × String)) : State :=
  ⟨owner, .empty, none, none, .empty, code, [], []⟩

/-- The code at an EVM address; `0x` where there is none. -/
def codeAt (state : State) (evm : Int) : String :=
  (state.code.lookup evm).getD "0x"

/-- The state with the code at an EVM address replaced. -/
def withCode (state : State) (evm : Int) (code : String) : State :=
  { state with code := (evm, code) :: state.code }

/-- A list of services with one more, in the order of `ServiceId.all`. -/
def including (services : List ServiceId) (service : ServiceId) : List ServiceId :=
  ServiceId.all.filter fun other => other = service || services.contains other

/-- The state with a service marked as initialized. -/
def markInitialized (state : State) (service : ServiceId) : State :=
  { state with initialized := including state.initialized service }

/-- The state with a service marked as running. -/
def markRunning (state : State) (service : ServiceId) : State :=
  { state with running := including state.running service }

/-- The state with a service marked as stopped. -/
def markStopped (state : State) (service : ServiceId) : State :=
  { state with running := state.running.filter fun other => other ≠ service }

end State

end AccountRegistry
