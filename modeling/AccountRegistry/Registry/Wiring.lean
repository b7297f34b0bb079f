import AccountRegistry.Registry.Addresses
import AccountRegistry.Registry.Genesis

/-!
# Wiring

A registry is wired from a spec: its identity, its provisioner and its registered services.  What
is wired stays fixed; what changes is the `State`.
-/

namespace AccountRegistry

/-- The fixed parts of a registry. -/
structure Wiring where
  hash : Hash
  identity : Identity
  spec : Spec
  services : List ServiceId
  provisioner : Provisioner

/-- What a registry is made from. -/
structure Setup where
  spec : Spec
  overrides : Overrides
  code : List (Int × String)
  withGenesis : Bool

namespace Wiring

/-- The transitions of a service: only the genesis service does more than to note its state. -/
def service (wiring : Wiring) (id : ServiceId) : Lifecycle.Service State where
  name := id.label
  init :=
    if id = .genesis then Genesis.init wiring.spec
    else Procedure.modify fun state => state.markInitialized id
  start := Procedure.modify fun state => state.markRunning id
  stop := Procedure.modify fun state => state.markStopped id
  initialized := fun state => state.initialized.contains id
  running := fun state => state.running.contains id

/-- The registered services. -/
def roster (wiring : Wiring) : List (Lifecycle.Service State) :=
  wiring.services.map wiring.service

/-- The services that a registry registers. -/
def registered (withGenesis : Bool) : List ServiceId :=
  if withGenesis then ServiceId.all else ServiceId.standing

/-- Wire a registry. -/
def create (hash : Hash) (setup : Setup) : Except Fault Wiring :=
  match Identity.ofSpec setup.spec setup.overrides with
  | .ok identity => .ok {
      hash := hash
      identity := identity
      spec := setup.spec
      services := registered setup.withGenesis
      provisioner := Provisioner.standard hash identity.deployer }
  | .error fault => .error fault

/-- The state of a newly wired registry. -/
def initial (wiring : Wiring) (setup : Setup) : State :=
  State.initial wiring.identity.initialOwner setup.code

/-- What wiring says to the log. -/
def log (wiring : Wiring) : List Log.Entry :=
  wiring.services.map fun id => Lifecycle.registered id.label

/-- Initialize and start every service. -/
def startUp (wiring : Wiring) : Procedure State Unit := do
  Lifecycle.initAll wiring.roster
  Lifecycle.startAll wiring.roster

end Wiring

/-- A wired registry with its state and what was said so far. -/
structure Launched where
  wiring : Wiring
  state : State
  log : List Log.Entry

/-- Wire a registry without starting it. -/
def Launched.create (hash : Hash) (setup : Setup) : Except Fault Launched :=
  (Wiring.create hash setup).map fun wiring => ⟨wiring, wiring.initial setup, wiring.log⟩

/-- Wire a registry and start it: the reason why it did not start, or the running registry. -/
def Launched.start (hash : Hash) (setup : Setup) : Except Stop Launched × List Log.Entry :=
  match Launched.create hash setup with
  | .error fault => (.error (.failed fault), [])
  | .ok created =>
      let run := created.wiring.startUp created.state
      let log := created.log ++ run.log
      match run.outcome with
      | .ok () => (.ok ⟨created.wiring, run.state, log⟩, log)
      | .error stop => (.error stop, log)

end AccountRegistry
