import AccountRegistry.Account

/-!
# Registry specs

The genesis configuration of a registry: who owns it, where it is deployed, and the values that
its configuration slots start with.
-/

namespace AccountRegistry

/-- The block context that a registry starts with. -/
structure ContextSpec where
  coinbase : Int
  baseFee : Int
  deriving DecidableEq, Repr, Inhabited

/-- The genesis configuration of a registry.  Class references stand under the keys of the spec.
-/
structure Spec where
  id : String
  chainId : Int
  deployer : Int
  owner : Int
  nativeToken : Option Int
  classReferences : List (String × Int)
  chainContext : Option ContextSpec
  deriving DecidableEq, Repr, Inhabited

/-- The class reference that a spec gives a kind. -/
def Spec.reference? (spec : Spec) (kind : ClassKind) : Option Int :=
  spec.classReferences.lookup kind.specKey

end AccountRegistry
