import AccountRegistry.Host.Ledger
import AccountRegistry.Registry.Machine

/-!
# A registry over a ledger

A registry and the ledger in memory that it deploys on.  When a call waits for the ledger, the
ledger may deploy what was asked for, or give any other reply; requests may also be made on the
ledger directly, and its rule may be changed at any time.
-/

namespace AccountRegistry

/-- A call whose `register` is told what a ledger holds at the caller's address. -/
def Call.informed (account : Int → Option DeployedAccount) : Call → Call
  | .register caller evm _ => .register caller evm (account caller)
  | call => call

/-- A registry and its ledger. -/
structure System where
  machine : Machine
  ledger : Ledger
  deriving Inhabited

namespace System

/-- What can happen in a system.

* `call`: the registry is called.
* `deploy`: the ledger takes the request of the latest waiting call and replies to it.
* `reply`: the latest waiting call gets a reply that the ledger has no part in.
* `request`: a request is made on the ledger directly.
* `reject`: the ledger gets another rule. -/
inductive Event where
  | call (call : Call)
  | deploy
  | reply (reply : HostReply)
  | request (request : DeployRequest)
  | reject (rejection : Rejection)

/-- A system after an event, with the effect on its registry, the reply to a direct request and
what was said to the log. -/
structure Step where
  system : System
  effect : Effect
  reply : Option HostReply
  log : List Log.Entry

/-- A registry between its calls, over a ledger. -/
def idle (state : State) (ledger : Ledger) : System := ⟨.idle state, ledger⟩

/-- Take an event of the registry. -/
def onMachine (wiring : Wiring) (system : System) (event : AccountRegistry.Event) : Step :=
  let step := system.machine.step wiring event
  ⟨⟨step.machine, system.ledger⟩, step.effect, none, step.log⟩

/-- Call the registry while a view shows the accounts that it can ask for. -/
def call (wiring : Wiring) (account : Int → Option DeployedAccount) (system : System)
    (call : Call) : Step :=
  system.onMachine wiring (.call (call.informed account))

/-- The request that the latest waiting call made. -/
def pending? (system : System) : Option DeployRequest :=
  system.machine.waiting.head?.map fun waiting => waiting.plan.request

/-- Take one event. -/
def step (wiring : Wiring) (system : System) : Event → Step
  | .call call => system.call wiring system.ledger.find? call
  | .deploy =>
      match system.pending? with
      | none => ⟨system, .ignored, none, []⟩
      | some request =>
          let after := { system with ledger := system.ledger.deploy wiring.hash request }
          after.onMachine wiring (.reply (system.ledger.reply wiring.hash request))
  | .reply reply => system.onMachine wiring (.reply reply)
  | .request request =>
      ⟨{ system with ledger := system.ledger.deploy wiring.hash request }, .ignored,
        some (system.ledger.reply wiring.hash request), []⟩
  | .reject rejection =>
      ⟨{ system with ledger := system.ledger.withRejection rejection }, .ignored, none, []⟩

/-- The system after a list of events. -/
def run (wiring : Wiring) : System → List Event → System
  | system, [] => system
  | system, event :: rest => run wiring (system.step wiring event).system rest

end System

end AccountRegistry
