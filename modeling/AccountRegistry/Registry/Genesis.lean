import AccountRegistry.Registry.Configuration

/-!
# Genesis

The values of the spec are written to the configuration slots through the operations that the
owner would use, in a fixed order: the class kinds, the native token, the block context.  Slots
that the spec leaves out stay as they are, and the first failure ends it.
-/

namespace AccountRegistry.Genesis

open Procedure

/-- Set the class references that the spec has for some kinds. -/
def applyReferences (spec : Spec) (owner : Int) : List ClassKind → Procedure State Unit
  | [] => pure ()
  | kind :: rest => do
      match spec.reference? kind with
      | some reference =>
          let _ ← Configuration.setClassReference owner kind.label reference
          applyReferences spec owner rest
      | none => applyReferences spec owner rest

/-- Set the native token if the spec has one. -/
def applyToken (spec : Spec) (owner : Int) : Procedure State Unit :=
  match spec.nativeToken with
  | some token => do
      let _ ← Configuration.setNativeToken owner token
  | none => pure ()

/-- Set the block context if the spec has one. -/
def applyContext (spec : Spec) (owner : Int) : Procedure State Unit :=
  match spec.chainContext with
  | some context => do
      let _ ← Configuration.setContext owner context.coinbase context.baseFee
  | none => pure ()

/-- Write every slot that the spec has, as the owner of the moment. -/
def apply (spec : Spec) : Procedure State Unit := do
  let owner := (← get).owner
  applyReferences spec owner ClassKind.all
  applyToken spec owner
  applyContext spec owner
  note .info "Registry genesis applied"
    [.record [("id", .text spec.id),
      ("classReferences", .number (Binary64.ofNat spec.classReferences.length)),
      ("nativeToken", .bool spec.nativeToken.isSome),
      ("chainContext", .bool spec.chainContext.isSome)]]

/-- Apply the spec unless it was applied before. -/
def init (spec : Spec) : Procedure State Unit := do
  if (← get).initialized.contains .genesis then pure ()
  else
    apply spec
    modify fun state => state.markInitialized .genesis

end AccountRegistry.Genesis
