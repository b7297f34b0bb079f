import AccountRegistry.Registry.Provisioning

/-!
# Address resolution

The operations on the address table.  An address that has no mapping is provisioned in two parts:
`begin` plans the deployment and asks for it, and `finish` records the mapping once the host
ledger has replied.  Whatever happens in between, the mapping that was written first stays.
-/

namespace AccountRegistry.Addresses

open Procedure

/-- The start of a provisioning: the mapped address, or the plan that the ledger is asked for. -/
inductive Start where
  | mapped (native : Int)
  | planned (plan : DeploymentPlan)

/-- Refuse a native address that is bound to another EVM address. -/
def checkCollision (hash : Hash) (evm native : Int) : Procedure State Unit := do
  match (← get).table.evm? native with
  | none => pure ()
  | some bound =>
      if bound = evm then pure ()
      else
        let evmText ← orEscape (Address.formatEvm hash evm)
        let boundText ← orEscape (Address.formatEvm hash bound)
        let nativeText ← orEscape (Address.formatNative native)
        let context := [("evmAddress", Value.text evmText),
          ("existingEvmAddress", .text boundText), ("nativeAddress", .text nativeText)]
        note .error "Native address derivation collision" [.record context]
        fail (.refusal .derivationCollision context)

/-- The fault of an address that has another mapping. -/
def alreadyRegistered (hash : Hash) (evm : Int) : Procedure State Fault := do
  let evmText ← orEscape (Address.formatEvm hash evm)
  return .refusal .alreadyRegistered [("evmAddress", .text evmText)]

/-- Write a mapping, unless its address has one; one to the same native address is kept. -/
def record (hash : Hash) (mapping : Mapping) : Procedure State Mapping := do
  match (← get).table.find? mapping.evmAddress with
  | some existing =>
      if existing.nativeAddress = mapping.nativeAddress then return existing
      else fail (← alreadyRegistered hash mapping.evmAddress)
  | none =>
      checkCollision hash mapping.evmAddress mapping.nativeAddress
      modify fun state => { state with table := state.table.add mapping }
      let evmText ← orEscape (Address.formatEvm hash mapping.evmAddress)
      let nativeText ← orEscape (Address.formatNative mapping.nativeAddress)
      note .debug "Address mapping recorded"
        [.record [("evmAddress", .text evmText), ("nativeAddress", .text nativeText),
          ("kind", .text mapping.kind)]]
      return mapping

/-- Start to provision an address as a kind of account with code. -/
def provision (hash : Hash) (provisioner : Provisioner) (evm : Int) (kind code : String) :
    Procedure State Start := do
  let state ← get
  match state.table.find? evm with
  | some existing =>
      if existing.kind ≠ kind then
        let evmText ← orEscape (Address.formatEvm hash evm)
        note .warn "Address already provisioned with another account kind"
          [.record [("evmAddress", .text evmText), ("existingKind", .text existing.kind),
            ("requestedKind", .text kind)]]
      return .mapped existing.nativeAddress
  | none =>
      let plan ← ofStop (provisioner.plan state.references evm kind code)
      checkCollision hash evm plan.nativeAddress
      return .planned plan

/-- Start to resolve an address: its code decides between the two kinds of account. -/
def resolve (hash : Hash) (provisioner : Provisioner) (evm : Int) : Procedure State Start := do
  let state ← get
  match state.table.native? evm with
  | some native => return .mapped native
  | none =>
      if ¬ Address.IsEvm evm then fail (Provisioning.notEvm evm)
      else
        let code := state.codeAt evm
        if code = "0x" then provision hash provisioner evm ClassKind.eoa.label "0x"
        else provision hash provisioner evm ClassKind.contractAccount.label code

/-- Finish a provisioning with the reply of the host ledger. -/
def finish (hash : Hash) (provisioner : Provisioner) (plan : DeploymentPlan) (reply : HostReply) :
    Procedure State Int := do
  match ← (provisioner.conclude plan reply).attempt with
  | .error fault =>
      let evmText ← orEscape (Address.formatEvm hash plan.evmAddress)
      note .warn "Account provisioning failed"
        [.record [("evmAddress", .text evmText), ("reason", .text fault.message)]]
      fail fault
  | .ok outcome =>
      let mapping ← record hash
        { evmAddress := plan.evmAddress
          nativeAddress := outcome.nativeAddress
          kind := plan.request.initialization.kind
          classReference := plan.request.classReference }
      return mapping.nativeAddress

/-- The mapped native address, or the one at which the address would be provisioned now. -/
def compute (provisioner : Provisioner) (evm : Int) : Procedure State Int := do
  let state ← get
  match state.table.native? evm with
  | some native => return native
  | none => ofStop (provisioner.derive state.references evm)

/-- Record an account that was deployed on the ledger directly.  The caller must be that account;
`account` is what the ledger holds at the caller's address. -/
def register (hash : Hash) (provisioner : Provisioner) (caller evm : Int)
    (account : Option DeployedAccount) : Procedure State Int := do
  let state ← get
  if (state.table.find? evm).isSome then fail (← alreadyRegistered hash evm)
  else
    let expected ← ofStop (provisioner.derive state.references evm)
    if caller ≠ expected then
      let expectedText ← orEscape (Address.formatNative expected)
      fail (.registry .unauthorized "Caller should be the account being registered"
        (.record [("operation", .text "registerAccount"),
          ("caller", .text (Digits.decimal caller)), ("expected", .text expectedText)]))
    else
      match account with
      | none =>
          let callerText ← orEscape (Address.formatNative caller)
          fail (.registry .deploymentFailed "Account is not deployed on the host ledger"
            (.record [("nativeAddress", .text callerText)]))
      | some deployed =>
          let mapping ← record hash
            { evmAddress := evm
              nativeAddress := caller
              kind := deployed.initialization.kind
              classReference := deployed.classReference }
          let evmText ← orEscape (Address.formatEvm hash evm)
          let nativeText ← orEscape (Address.formatNative mapping.nativeAddress)
          note .info "Account registered"
            [.record [("evmAddress", .text evmText), ("nativeAddress", .text nativeText)]]
          return mapping.nativeAddress

end AccountRegistry.Addresses
