import AccountRegistry.Derivation
import AccountRegistry.Host.Reply
import AccountRegistry.Registry.State
import AccountRegistry.Text.Numeral

/-!
# Provisioning

The account of an EVM address is planned from the current proxy reference, and the plan is then
concluded by what the host ledger replied to its request.  An account that is already deployed at
the planned address counts as deployed.
-/

namespace AccountRegistry

/-- How accounts are derived, planned and concluded. -/
structure Provisioner where
  derive : ClassReferences → Int → Except Stop Int
  plan : ClassReferences → Int → String → String → Except Stop DeploymentPlan
  conclude : DeploymentPlan → HostReply → Procedure State DeploymentOutcome

namespace Provisioning

open Procedure

/-- A source of class references by the name of their kind. -/
abbrev ReferenceReader := ClassReferences → String → Except Fault Int

/-- A fault that is returned. -/
def returned {α : Type} : Except Fault α → Except Stop α :=
  Except.mapError Stop.failed

/-- A fault that escapes. -/
def escaping {α : Type} : Except Fault α → Except Stop α :=
  Except.mapError Stop.escaped

/-- The fault of an integer that is no EVM address. -/
def notEvm (evm : Int) : Fault :=
  .refusal .invalidEvmAddress [("value", .text (Digits.decimal evm))]

/-- The proxy reference; that it was never set has a code of its own here. -/
def proxyReference (read : ReferenceReader) (store : ClassReferences) : Except Fault Int :=
  match read store ClassKind.proxy.label with
  | .ok reference => .ok reference
  | .error fault =>
      if fault.isRefusal (some .notConfigured) then
        .error (.refusal .classReferenceMissing [("kind", .text ClassKind.proxy.label)])
      else .error fault

/-- The native address of an EVM address under the current proxy reference. -/
def derive (hash : Hash) (deployer : Int) (read : ReferenceReader) (store : ClassReferences)
    (evm : Int) : Except Stop Int := do
  if ¬ Address.IsEvm evm then throw (.failed (notEvm evm))
  let reference ← returned (proxyReference read store)
  escaping (Derivation.accountAddress hash reference evm deployer)

/-- The reference of a kind, if there is one to read. -/
def implementation (read : ReferenceReader) (store : ClassReferences) (kind : String) :
    Option Int :=
  (read store kind).toOption

/-- The plan to deploy the account of an EVM address with a kind and code. -/
def plan (hash : Hash) (deployer : Int) (read : ReferenceReader) (store : ClassReferences)
    (evm : Int) (kind code : String) : Except Stop DeploymentPlan := do
  if ¬ Numeral.isHexString code then
    throw (.failed (.refusal .invalidBytecode [("evmAddress", .text (Digits.decimal evm))]))
  if ¬ Address.IsEvm evm then throw (.failed (notEvm evm))
  let reference ← returned (proxyReference read store)
  let address ← escaping (Derivation.accountAddress hash reference evm deployer)
  return {
    evmAddress := evm
    nativeAddress := address
    request := {
      classReference := reference
      constructorArgs := Derivation.accountArguments deployer evm
      salt := evm
      deployer := deployer
      initialization := ⟨kind, implementation read store kind, code⟩ } }

/-- What a plan came to with the reply of the host ledger. -/
def conclude (hash : Hash) (plan : DeploymentPlan) : HostReply → Procedure State DeploymentOutcome
  | .threw fault => stop (.escaped fault)
  | .refused fault => do
      if fault.isRefusal (some .alreadyDeployed) then
        let evmText ← orEscape (Address.formatEvm hash plan.evmAddress)
        let nativeText ← orEscape (Address.formatNative plan.nativeAddress)
        note .debug "Account proxy already deployed"
          [.record [("evmAddress", .text evmText), ("nativeAddress", .text nativeText)]]
        return ⟨plan.nativeAddress, true⟩
      else if fault.isRefusal (some .deploymentFailed) then fail fault
      else
        let evmText ← orEscape (Address.formatEvm hash plan.evmAddress)
        fail (.registry .deploymentFailed fault.message (.record [("evmAddress", .text evmText)]))
  | .deployed address => do
      let evmText ← orEscape (Address.formatEvm hash plan.evmAddress)
      if address ≠ plan.nativeAddress then
        let expectedText ← orEscape (Address.formatNative plan.nativeAddress)
        note .error "Host ledger deployed at an unexpected address"
          [.record [("evmAddress", .text evmText), ("expected", .text expectedText),
            ("actual", .integer address)]]
        fail (.refusal .derivationCollision
          [("evmAddress", .text evmText),
           ("expected", .text (Digits.decimal plan.nativeAddress)),
           ("actual", .text (Digits.decimal address))])
      else
        let nativeText ← orEscape (Address.formatNative address)
        note .info "Account proxy deployed"
          [.record [("evmAddress", .text evmText), ("nativeAddress", .text nativeText),
            ("kind", .text plan.request.initialization.kind)]]
        return ⟨address, false⟩

end Provisioning

/-- The provisioner of a registry, which reads the class references of its own store. -/
def Provisioner.standard (hash : Hash) (deployer : Int) : Provisioner where
  derive := Provisioning.derive hash deployer ClassReferences.read
  plan := Provisioning.plan hash deployer ClassReferences.read
  conclude := Provisioning.conclude hash

end AccountRegistry
