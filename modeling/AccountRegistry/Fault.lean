import AccountRegistry.Environment.VaultFault
import AccountRegistry.Number.Binary64
import AccountRegistry.Text.Digits

/-!
# Faults and values

What can go wrong, as causes, and the dynamic values that faults carry as context and that log
lines carry as arguments.  `Fault.message` is the only place that words a fault.
-/

namespace AccountRegistry

/-- The stable codes that collaborators branch on. -/
inductive FaultCode where
  | notConfigured
  | unauthorized
  | alreadyConfigured
  | alreadyDeployed
  | derivationCollision
  | classReferenceMissing
  | deploymentFailed
  | alreadyRegistered
  | invalidEvmAddress
  | invalidNativeAddress
  | invalidClassKind
  | invalidClassReference
  | invalidBaseFee
  | invalidBytecode
  | invalidRegistrySpec
  deriving DecidableEq, Repr, Inhabited

namespace FaultCode

/-- Every code. -/
def all : List FaultCode :=
  [.notConfigured, .unauthorized, .alreadyConfigured, .alreadyDeployed, .derivationCollision,
   .classReferenceMissing, .deploymentFailed, .alreadyRegistered, .invalidEvmAddress,
   .invalidNativeAddress, .invalidClassKind, .invalidClassReference, .invalidBaseFee,
   .invalidBytecode, .invalidRegistrySpec]

/-- The written form of a code. -/
def label : FaultCode → String
  | .notConfigured => "not_configured"
  | .unauthorized => "unauthorized"
  | .alreadyConfigured => "already_configured"
  | .alreadyDeployed => "already_deployed"
  | .derivationCollision => "derivation_collision"
  | .classReferenceMissing => "class_reference_missing"
  | .deploymentFailed => "deployment_failed"
  | .alreadyRegistered => "already_registered"
  | .invalidEvmAddress => "invalid_evm_address"
  | .invalidNativeAddress => "invalid_native_address"
  | .invalidClassKind => "invalid_class_kind"
  | .invalidClassReference => "invalid_class_reference"
  | .invalidBaseFee => "invalid_base_fee"
  | .invalidBytecode => "invalid_bytecode"
  | .invalidRegistrySpec => "invalid_registry_spec"

/-- The code with a written form. -/
def ofLabel? (label : String) : Option FaultCode :=
  all.find? fun code => code.label = label

@[simp] theorem ofLabel?_label (code : FaultCode) : ofLabel? code.label = some code := by
  cases code <;> rfl

/-- The message of a fault that brings none of its own. -/
def message : FaultCode → String
  | .notConfigured => "Value has not been configured yet"
  | .unauthorized => "Caller is not authorized"
  | .alreadyConfigured => "Value can only be configured once"
  | .alreadyDeployed => "An account is already deployed at this address"
  | .derivationCollision => "Derived native address is bound to another EVM address"
  | .classReferenceMissing => "Account proxy class reference is not configured"
  | .deploymentFailed => "Host ledger rejected the deployment"
  | .alreadyRegistered => "Account already registered"
  | .invalidEvmAddress => "Not a 160-bit EVM address"
  | .invalidNativeAddress => "Not a valid host-ledger native address"
  | .invalidClassKind => "Unknown class kind"
  | .invalidClassReference => "Class reference must be a non-zero field element"
  | .invalidBaseFee => "Base fee must be a non-negative integer"
  | .invalidBytecode => "Bytecode must be a 0x-prefixed hex string"
  | .invalidRegistrySpec => "Registry spec file is invalid"

end FaultCode

mutual

/-- A value of a fault's context or of a log line; `absent` stands for a value that is not there.
-/
inductive Value where
  | absent
  | null
  | bool (value : Bool)
  | number (value : Binary64)
  | integer (value : Int)
  | text (value : String)
  | list (items : List Value)
  | record (fields : List (String × Value))
  | fault (cause : Fault)

/-- A cause of failure.

* `registry`: a refusal of the registry, with its code, message and context; a refusal without a
  context has an absent one.
* `unlisted`: a refusal under something else than one of the codes.
* `plain`: a failure of a collaborator, known by its message alone.
* `textless`: a value that has no text where one is needed.
* `nameless`: nothing where a service with a name is needed.
* `environment`: environment variables that do not fit their schema.
* `vault`: a vault of environment variables that could not be opened.
* `directory`: a directory where a file was to be read.
* `wordRange`: an integer that does not fit in a word.
* `unsignedRange`: an integer that is not an unsigned integer of a width. -/
inductive Fault where
  | registry (code : FaultCode) (message : String) (context : Value)
  | unlisted (code : Value) (message : String) (context : Value)
  | plain (message : String)
  | textless
  | nameless
  | environment (message : String)
  | vault (cause : VaultFault)
  | directory
  | wordRange (value : Int)
  | unsignedRange (value : Int) (bits : Nat)

end

instance : Inhabited Value := ⟨.absent⟩

instance : Coe String Value := ⟨.text⟩

instance : Inhabited Fault := ⟨.plain ""⟩

namespace Fault

/-- A refusal with a code and a context, in the code's own words. -/
def refusal (code : FaultCode) (context : List (String × Value)) : Fault :=
  .registry code code.message (.record context)

/-- The kind of a fault, as log lines name it. -/
def kind : Fault → String
  | .registry .. => "RegistryError"
  | .unlisted .. => "RegistryError"
  | .plain _ => "Error"
  | .textless => "TypeError"
  | .nameless => "TypeError"
  | .environment _ => "ZodError"
  | .vault cause => cause.kind
  | .directory => "Error"
  | .wordRange _ => "RangeError"
  | .unsignedRange .. => "IntegerOutOfRangeError"

/-- The message of a fault. -/
def message : Fault → String
  | .registry _ message _ => message
  | .unlisted _ message _ => message
  | .plain message => message
  | .textless => "Cannot convert object to primitive value"
  | .nameless => "Cannot read properties of undefined (reading 'name')"
  | .environment message => message
  | .vault cause => cause.message
  | .directory => "EISDIR: illegal operation on a directory, read"
  | .wordRange value => "Value does not fit in a 32-byte word: " ++ Digits.decimal value
  | .unsignedRange value bits =>
      "Number \"" ++ Digits.decimal value ++ "n\" is not in safe " ++ Nat.repr bits ++
        "-bit unsigned integer range (0n to " ++ Nat.repr (Nat.pow 2 bits - 1) ++ "n)"

/-- The code of a refusal of the registry, if it is one of the list. -/
def code? : Fault → Option FaultCode
  | .registry code _ _ => some code
  | _ => none

/-- The written form of the code of a refusal. -/
def label? : Fault → Option String
  | .registry code _ _ => some code.label
  | .unlisted (.text label) _ _ => some label
  | _ => none

/-- Whether a fault is a refusal of the registry, of a given code if there is one. -/
def isRefusal (fault : Fault) (code : Option FaultCode) : Bool :=
  match fault, code with
  | .registry actual _ _, some wanted => actual = wanted
  | .registry .., none => true
  | .unlisted .., none => true
  | _, _ => false

end Fault

/-- Why an operation ended without a result: it returned a fault, or a fault escaped from it. -/
inductive Stop where
  | failed (fault : Fault)
  | escaped (fault : Fault)
  deriving Inhabited

/-- The fault of either ending. -/
def Stop.fault : Stop → Fault
  | .failed fault => fault
  | .escaped fault => fault

end AccountRegistry
