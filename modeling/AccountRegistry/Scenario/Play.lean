import AccountRegistry.Scenario.Run

/-!
# Playing scenarios

A scenario is set up as a registry of its own, possibly with another provisioner put in the place
of the standard one, and its steps are taken one after the other.
-/

namespace AccountRegistry

/-- A provisioner that sees no class references, since each read of them ends in a fault. -/
def Provisioner.blind (hash : Hash) (deployer : Int) (fault : Fault) : Provisioner where
  derive := Provisioning.derive hash deployer fun _ _ => .error fault
  plan := Provisioning.plan hash deployer fun _ _ => .error fault
  conclude := Provisioning.conclude hash

/-- A provisioner that plans every account for one address, and derives that address too if told
so.  It takes every deployment as done. -/
def Provisioner.colliding (base : Provisioner) (address : Int) (derives : Bool) : Provisioner where
  derive := fun store evm => (base.derive store evm).map fun native =>
    if derives then address else native
  plan := fun store evm kind code => (base.plan store evm kind code).map fun plan =>
    { plan with nativeAddress := address }
  conclude := fun plan _ => pure ⟨plan.nativeAddress, false⟩

namespace Scenario

/-- The one address that accounts are planned for. -/
structure Collision where
  address : Int
  derives : Bool

/-- How the registry of a scenario is made. -/
structure Plot where
  setup : Setup
  started : Bool
  declared : List DeployedAccount
  scripted : Bool
  classFault : Option Fault
  collision : Option Collision

/-- A step that was taken: how it ended, how the steps inside it ended, and what was said. -/
structure Played where
  result : Result
  nested : List Result
  log : List Log.Entry

/-- The setup of a scenario; the code of accounts is part of the script. -/
def Plot.effectiveSetup (plot : Plot) : Setup :=
  if plot.scripted then plot.setup else { plot.setup with code := [] }

/-- Set the registry up: the reason why it did not come up, or the registry, and what was said. -/
def Plot.launch (hash : Hash) (plot : Plot) : Except Stop Launched × List Log.Entry :=
  if plot.started then Launched.start hash plot.effectiveSetup
  else match Launched.create hash plot.effectiveSetup with
    | .ok launched => (.ok launched, launched.log)
    | .error fault => (.error (.escaped fault), [])

/-- The collision that takes place; where no class reference can be read, no plan comes to one. -/
def Plot.effectiveCollision (plot : Plot) : Option Collision :=
  if plot.classFault.isSome then none else plot.collision

/-- The provisioner of a scenario. -/
def Plot.provisioner (plot : Plot) (wiring : Wiring) : Provisioner :=
  match plot.classFault, plot.effectiveCollision with
  | some fault, _ => Provisioner.blind wiring.hash wiring.identity.deployer fault
  | none, some collision => wiring.provisioner.colliding collision.address collision.derives
  | none, none => wiring.provisioner

/-- The setting of a scenario with a wired registry. -/
def Plot.setting (plot : Plot) (wiring : Wiring) : Setting where
  wiring := { wiring with provisioner := plot.provisioner wiring }
  declared := if plot.scripted then plot.declared else []
  scripted := plot.scripted
  bypassed := plot.effectiveCollision.isSome

/-- The stage that a scenario starts on. -/
def Stage.opening (launched : Launched) : Stage :=
  ⟨.idle launched.state .empty, []⟩

/-- What a step came to from the results of all steps that ended in it, its own the last. -/
def Played.ofResults (results : List Result) (log : List Log.Entry) : Option Played :=
  results.getLast?.map fun result => ⟨result, results.dropLast, log⟩

/-- Take steps one after the other. -/
def play (setting : Setting) : Stage → List Step → List Played
  | _, [] => []
  | stage, step :: rest =>
      let after := run setting stage [.perform step]
      (Played.ofResults after.2.1 after.2.2).toList ++ play setting after.1 rest

/-- Set a scenario up and take its steps. -/
def Plot.perform (hash : Hash) (plot : Plot) (steps : List Step) :
    Except Stop (List String × List Played) × List Log.Entry :=
  match plot.launch hash with
  | (.ok launched, log) =>
      let names := launched.wiring.roster.map Lifecycle.Service.name
      let played := play (plot.setting launched.wiring) (.opening launched) steps
      (.ok (names, played), log)
  | (.error stop, log) => (.error stop, log)

end Scenario

end AccountRegistry
