import AccountRegistry.Registry.State

/-!
# Configuration slots

The owner, the class references, the native token and the block context: what only the owner may
write and everybody may read.  The owner is checked before anything else, the token can be written
once, and every write of the block context replaces it whole.
-/

namespace AccountRegistry.Configuration

open Procedure

/-- Refuse a caller that is not the owner. -/
def authorize (operation : String) (caller : Int) : Procedure State Unit := do
  let state ← get
  if caller = state.owner then pure ()
  else fail (.refusal .unauthorized
    [("operation", .text operation), ("caller", .text (Digits.decimal caller))])

/-- Hand ownership over. -/
def transferOwnership (caller newOwner : Int) : Procedure State Int := do
  authorize "transferOwnership" caller
  let owner ← ofExcept (Address.native newOwner)
  let previous := (← get).owner
  modify fun state => { state with owner := owner }
  let previousText ← orEscape (Address.formatNative previous)
  let ownerText ← orEscape (Address.formatNative owner)
  note .info "Ownership transferred"
    [.record [("previousOwner", .text previousText), ("newOwner", .text ownerText)]]
  return owner

/-- Set the class reference of the kind of a name. -/
def setClassReference (caller : Int) (label : String) (reference : Int) :
    Procedure State VersionedReference := do
  authorize "setClassReference" caller
  let kind ← ofExcept (ClassReferences.kindOf label)
  if ¬ Address.IsClassReference reference then
    fail (.refusal .invalidClassReference
      [("kind", .text label), ("reference", .text (Digits.decimal reference))])
  else
    let version := (← get).references.version kind + 1
    modify fun state => { state with references := state.references.set kind reference }
    note .debug "Class reference updated"
      [.record [("kind", .text label), ("reference", .integer reference),
        ("version", .number (Binary64.ofNat version))]]
    return ⟨kind, reference, version⟩

/-- Set the native token, once. -/
def setNativeToken (caller address : Int) : Procedure State Int := do
  authorize "setNativeToken" caller
  match (← get).nativeToken with
  | some current =>
      let currentText ← orEscape (Address.formatNative current)
      fail (.refusal .alreadyConfigured
        [("slot", .text "nativeToken"), ("current", .text currentText)])
  | none =>
      let token ← ofExcept (Address.native address)
      modify fun state => { state with nativeToken := some token }
      let tokenText ← orEscape (Address.formatNative token)
      note .info "Native token configured" [.record [("nativeToken", .text tokenText)]]
      return token

/-- How often the block context was set. -/
def contextVersion (state : State) : Nat :=
  match state.context with
  | some context => context.version
  | none => 0

/-- Replace the block context. -/
def setContext (caller coinbase baseFee : Int) : Procedure State ChainContext := do
  authorize "setContext" caller
  let beneficiary ← ofExcept (Address.native coinbase)
  if baseFee < 0 then
    fail (.refusal .invalidBaseFee [("baseFee", .text (Digits.decimal baseFee))])
  else
    let context : ChainContext := ⟨beneficiary, baseFee, contextVersion (← get) + 1⟩
    modify fun state => { state with context := some context }
    note .debug "Chain context updated"
      [.record [("coinbase", .integer context.coinbase), ("baseFee", .integer context.baseFee),
        ("version", .number (Binary64.ofNat context.version))]]
    return context

/-- The native token. -/
def nativeToken (state : State) : Except Fault Int :=
  match state.nativeToken with
  | some token => .ok token
  | none => .error (.registry .notConfigured "Native token is not configured"
      (.record [("slot", .text "nativeToken")]))

/-- The block context. -/
def context (state : State) : Except Fault ChainContext :=
  match state.context with
  | some context => .ok context
  | none => .error (.registry .notConfigured "Chain context is not configured"
      (.record [("slot", .text "chainContext")]))

end AccountRegistry.Configuration
