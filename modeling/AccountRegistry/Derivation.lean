import AccountRegistry.Address

/-!
# Address derivation

The address at which the host ledger deploys an account: the digest of a fixed prefix, the
deployer, a salt, the class reference and the digest of the constructor arguments, taken modulo
the bound of native addresses.  The account of an EVM address has that address as its salt and
the deployer and the address as its arguments, so its place is known before it is deployed.
The hash is any function from byte strings to words.
-/

namespace AccountRegistry.Derivation

/-- The 32 bytes that set these preimages apart from all others: a text and zeros. -/
def domain : List UInt8 :=
  let name := "EVM_REGISTRY_NATIVE_ADDRESS".toList.map fun c => UInt8.ofNat c.toNat
  name ++ List.replicate (32 - name.length) 0

/-- The word of an integer; an integer that does not fit in one is a fault. -/
def word (value : Int) : Except Fault Word :=
  match Word.ofInt? value with
  | some word => .ok word
  | none => .error (.wordRange value)

/-- The words of integers in order, up to the first that does not fit. -/
def wordsOf : List Int → Except Fault (List Word)
  | [] => .ok []
  | value :: rest => do
      let first ← word value
      let others ← wordsOf rest
      return first :: others

/-- The encodings of words one after the other. -/
def encodeWords (words : List Word) : List UInt8 :=
  words.flatMap Word.bytes

/-- The digest of a list of integers. -/
def hashWords (hash : Hash) (values : List Int) : Except Fault Word := do
  let words ← wordsOf values
  return hash (encodeWords words)

/-- The bytes that the address of a deployment is hashed from. -/
def preimage (deployer salt classReference arguments : Word) : List UInt8 :=
  domain ++ encodeWords [deployer, salt, classReference, arguments]

/-- The address of a deployment. -/
def contractAddress (hash : Hash) (deployer salt classReference : Int) (arguments : List Int) :
    Except Fault Int := do
  let deployerWord ← word deployer
  let saltWord ← word salt
  let classWord ← word classReference
  let argumentsWord ← hashWords hash arguments
  let digest := hash (preimage deployerWord saltWord classWord argumentsWord)
  return (digest.toNat : Int) % Address.nativeUpperBound

/-- The constructor arguments of an account: the deployer and the address it stands for. -/
def accountArguments (deployer evm : Int) : List Int :=
  [deployer, evm]

/-- The native address of the account of an EVM address. -/
def accountAddress (hash : Hash) (classReference evm deployer : Int) : Except Fault Int :=
  contractAddress hash deployer evm classReference (accountArguments deployer evm)

end AccountRegistry.Derivation
