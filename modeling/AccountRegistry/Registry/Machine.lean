import AccountRegistry.Registry.Wiring

/-!
# The registry as a machine

A registry answers calls.  A call that has to deploy an account asks the host ledger and waits;
the ledger may make any further calls before it replies, so that several calls can wait at once,
the latest in front.  A run over any ledger, which may reply anything and call back to any depth,
is a list of events; `step` takes one event and does not recurse.
-/

namespace AccountRegistry

/-- The operations of a registry.  Kinds are given by name. -/
inductive Call where
  | resolve (evm : Int)
  | provisionEoa (evm : Int)
  | provisionContract (evm : Int) (code : String)
  | deployIfAbsent (plan : DeploymentPlan)
  /-- What a registration is told about the account at the caller's address is the ledger's own
  answer at that moment.  Asking for it is a read, which calls nothing back and does not throw, so
  there is no answer that throws. -/
  | register (caller evm : Int) (account : Option DeployedAccount)
  | lookup (evm : Int)
  | mapping (evm : Int)
  | evmOf (native : Int)
  | compute (evm : Int)
  | derive (evm : Int)
  | plan (evm : Int) (kind code : String)
  | setClassReference (caller : Int) (kind : String) (reference : Int)
  | setNativeToken (caller address : Int)
  | setContext (caller coinbase baseFee : Int)
  | transferOwnership (caller newOwner : Int)
  | classReference (kind : String)
  | versionedReference (kind : String)
  | nativeToken
  | context
  | coinbase
  | baseFee
  | owner
  | isAuthorized (caller : Int)
  | code (evm : Int)
  | setCode (evm : Int) (code : String)
  | identity
  | spec
  | initGenesis
  | serviceStatus (name : String)
  | statuses
  | allRunning
  | initAll
  | startAll
  | stopAll
  deriving Inhabited

/-- What a call returns. -/
inductive Answer where
  | nothing
  | flag (value : Bool)
  | integer (value : Int)
  | text (value : String)
  | mapping (value : Mapping)
  | versioned (value : VersionedReference)
  | context (value : ChainContext)
  | identity (value : Identity)
  | spec (value : Spec)
  | plan (value : DeploymentPlan)
  | outcome (value : DeploymentOutcome)
  | account (value : DeployedAccount)
  | statuses (value : List Lifecycle.Status)
  | status (value : Lifecycle.Status)
  deriving Inhabited

namespace Answer

/-- An integer that may be missing. -/
def ofInteger? : Option Int → Answer
  | some value => .integer value
  | none => .nothing

end Answer

/-- How far a call got at once: to its end, or to the plan that the ledger is asked for. -/
inductive Progress where
  | finished (answer : Answer)
  | asks (plan : DeploymentPlan)
  deriving Inhabited

namespace Registry

open Procedure

/-- A provisioning as progress. -/
def ofStart (start : Procedure State Addresses.Start) : Procedure State Progress := do
  match ← start with
  | .mapped native => return .finished (.integer native)
  | .planned plan => return .asks plan

/-- A procedure whose result ends the call. -/
def finishing {α : Type} (procedure : Procedure State α) (answer : α → Answer) :
    Procedure State Progress := do
  let value ← procedure
  return .finished (answer value)

/-- A view of the state, which changes nothing. -/
def viewing (view : State → Answer) : Procedure State Progress := do
  let state ← get
  return .finished (view state)

/-- A view of the state that may be refused. -/
def reading {α : Type} (view : State → Except Fault α) (answer : α → Answer) :
    Procedure State Progress := do
  let state ← get
  finishing (ofExcept (view state)) answer

/-- Run a call up to its end or up to its request to the ledger. -/
def begin (wiring : Wiring) : Call → Procedure State Progress
  | .resolve evm => ofStart (Addresses.resolve wiring.hash wiring.provisioner evm)
  | .provisionEoa evm =>
      ofStart (Addresses.provision wiring.hash wiring.provisioner evm ClassKind.eoa.label "0x")
  | .provisionContract evm code =>
      ofStart (Addresses.provision wiring.hash wiring.provisioner evm
        ClassKind.contractAccount.label code)
  | .deployIfAbsent plan => pure (.asks plan)
  | .register caller evm account =>
      finishing (Addresses.register wiring.hash wiring.provisioner caller evm account) .integer
  | .lookup evm => viewing fun state => .ofInteger? (state.table.native? evm)
  | .mapping evm => viewing fun state =>
      match state.table.find? evm with
      | some mapping => .mapping mapping
      | none => .nothing
  | .evmOf native => viewing fun state => .ofInteger? (state.table.evm? native)
  | .compute evm => finishing (Addresses.compute wiring.provisioner evm) .integer
  | .derive evm => do
      let state ← get
      finishing (ofStop (wiring.provisioner.derive state.references evm)) .integer
  | .plan evm kind code => do
      let state ← get
      finishing (ofStop (wiring.provisioner.plan state.references evm kind code)) .plan
  | .setClassReference caller kind reference =>
      finishing (Configuration.setClassReference caller kind reference) .versioned
  | .setNativeToken caller address =>
      finishing (Configuration.setNativeToken caller address) .integer
  | .setContext caller coinbase baseFee =>
      finishing (Configuration.setContext caller coinbase baseFee) .context
  | .transferOwnership caller newOwner =>
      finishing (Configuration.transferOwnership caller newOwner) .integer
  | .classReference kind => reading (fun state => state.references.read kind) .integer
  | .versionedReference kind =>
      reading (fun state => state.references.readVersioned kind) .versioned
  | .nativeToken => reading Configuration.nativeToken .integer
  | .context => reading Configuration.context .context
  | .coinbase => reading Configuration.context fun context => .integer context.coinbase
  | .baseFee => reading Configuration.context fun context => .integer context.baseFee
  | .owner => viewing fun state => .integer state.owner
  | .isAuthorized caller => viewing fun state => .flag (caller = state.owner)
  | .code evm => viewing fun state => .text (state.codeAt evm)
  | .setCode evm code =>
      finishing (modify fun state => state.withCode evm code) fun _ => .nothing
  | .identity => pure (.finished (.identity wiring.identity))
  | .spec => pure (.finished (.spec wiring.spec))
  | .initGenesis => finishing (Genesis.init wiring.spec) fun _ => .flag true
  | .serviceStatus name => viewing fun state =>
      match Lifecycle.get? wiring.roster name with
      | some service => .status (service.status state)
      | none => .nothing
  | .statuses => viewing fun state => .statuses (Lifecycle.statuses wiring.roster state)
  | .allRunning => viewing fun state => .flag (Lifecycle.allRunning wiring.roster state)
  | .initAll => finishing (Lifecycle.initAll wiring.roster) fun _ => .flag true
  | .startAll => finishing (Lifecycle.startAll wiring.roster) fun _ => .flag true
  | .stopAll => finishing (Lifecycle.stopAll wiring.roster) fun _ => .flag true

/-- Finish a call that waited for the reply to its plan. -/
def resume (wiring : Wiring) (call : Call) (plan : DeploymentPlan) (reply : HostReply) :
    Procedure State Answer := do
  match call with
  | .deployIfAbsent _ => return .outcome (← wiring.provisioner.conclude plan reply)
  | _ => return .integer (← Addresses.finish wiring.hash wiring.provisioner plan reply)

end Registry

/-- A call that waits for the host ledger, with its plan. -/
structure Waiting where
  call : Call
  plan : DeploymentPlan
  deriving Inhabited

/-- A registry in the middle of a run: its state and the calls that wait, the latest first. -/
structure Machine where
  state : State
  waiting : List Waiting
  deriving Inhabited

/-- What can happen to a registry: a call, or the ledger's reply to the latest waiting call. -/
inductive Event where
  | call (call : Call)
  | reply (reply : HostReply)
  deriving Inhabited

/-- What an event led to: the end of a call, a request to the ledger, or nothing where no call
waits for a reply. -/
inductive Effect where
  | ended (call : Call) (outcome : Except Stop Answer)
  | asked (call : Call) (plan : DeploymentPlan)
  | ignored
  deriving Inhabited

/-- A machine after an event, with its effect and what was said to the log. -/
structure Step where
  machine : Machine
  effect : Effect
  log : List Log.Entry

namespace Machine

/-- A registry between its calls. -/
def idle (state : State) : Machine := ⟨state, []⟩

/-- Take one event. -/
def step (wiring : Wiring) (machine : Machine) : Event → Step
  | .call call =>
      let run := Registry.begin wiring call machine.state
      match run.outcome with
      | .ok (.finished answer) =>
          ⟨⟨run.state, machine.waiting⟩, .ended call (.ok answer), run.log⟩
      | .ok (.asks plan) =>
          ⟨⟨run.state, ⟨call, plan⟩ :: machine.waiting⟩, .asked call plan, run.log⟩
      | .error stop => ⟨⟨run.state, machine.waiting⟩, .ended call (.error stop), run.log⟩
  | .reply reply =>
      match machine.waiting with
      | [] => ⟨machine, .ignored, []⟩
      | ⟨call, plan⟩ :: rest =>
          let run := Registry.resume wiring call plan reply machine.state
          ⟨⟨run.state, rest⟩, .ended call run.outcome, run.log⟩

/-- The machine after a list of events. -/
def run (wiring : Wiring) : Machine → List Event → Machine
  | machine, [] => machine
  | machine, event :: rest => run wiring (machine.step wiring event).machine rest

/-- The effects of a list of events in their order. -/
def effects (wiring : Wiring) : Machine → List Event → List Effect
  | _, [] => []
  | machine, event :: rest =>
      let next := machine.step wiring event
      next.effect :: effects wiring next.machine rest

end Machine

end AccountRegistry
