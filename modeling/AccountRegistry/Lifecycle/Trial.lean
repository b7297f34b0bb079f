import AccountRegistry.Lifecycle

/-!
# Lifecycle trials

Services that record their transitions and fail where they are told to, and steps that register
and drive them.
-/

namespace AccountRegistry.Lifecycle.Trial

/-- A transition of a service. -/
inductive Phase where
  | init
  | start
  | stop
  deriving DecidableEq, Repr, Inhabited

/-- The name of a transition. -/
def Phase.label : Phase → String
  | .init => "init"
  | .start => "start"
  | .stop => "stop"

/-- The transition with a name. -/
def Phase.ofLabel? (label : String) : Option Phase :=
  [Phase.init, .start, .stop].find? fun phase => phase.label = label

/-- A service on trial: the transitions that it fails, whether those faults escape, and whether it
records its transitions. -/
structure Subject where
  name : String
  fails : List Phase
  throws : Bool
  recorded : Bool

/-- What the subjects leave behind: the transitions that were called, the latest last, and the
places of those that are initialized and that run. -/
structure Traces where
  calls : List String
  initialized : List Nat
  running : List Nat

namespace Traces

/-- Nothing was called. -/
def none : Traces := ⟨[], [], []⟩

/-- The traces after a transition of the subject at a place. -/
def mark (traces : Traces) (place : Nat) : Phase → Traces
  | .init => { traces with initialized := place :: traces.initialized }
  | .start => { traces with running := place :: traces.running }
  | .stop => { traces with running := traces.running.filter (· ≠ place) }

/-- The traces with one more call. -/
def called (traces : Traces) (call : String) : Traces :=
  { traces with calls := traces.calls ++ [call] }

end Traces

namespace Subject

/-- The fault of a transition that fails. -/
def failure (subject : Subject) (phase : Phase) : Fault :=
  .plain (subject.name ++ " " ++ phase.label ++ " failed")

/-- End with a fault in the way of the subject. -/
def fail (subject : Subject) (phase : Phase) : Procedure Traces Unit :=
  if subject.throws then Procedure.stop (.escaped (subject.failure phase))
  else Procedure.fail (subject.failure phase)

/-- A transition of a subject.  One that fails to stop has stopped all the same. -/
def transition (subject : Subject) (place : Nat) (phase : Phase) : Procedure Traces Unit := do
  if subject.recorded then
    Procedure.modify fun traces => traces.called (phase.label ++ ":" ++ subject.name)
    if subject.fails.contains phase then
      if phase = .stop then Procedure.modify fun traces => traces.mark place phase
      subject.fail phase
    else Procedure.modify fun traces => traces.mark place phase
  else Procedure.modify fun traces => traces.mark place phase

/-- The service that a subject is. -/
def service (subject : Subject) (place : Nat) : Service Traces where
  name := subject.name
  init := subject.transition place .init
  start := subject.transition place .start
  stop := subject.transition place .stop
  initialized := fun traces => traces.initialized.contains place
  running := fun traces => traces.running.contains place

end Subject

/-- A step of a trial. -/
inductive Step where
  | register (place : Nat)
  | get (name : String)
  | names
  | statuses
  | allRunning
  | initAll
  | startAll
  | stopAll

/-- What a step returns. -/
inductive Answer where
  | nothing
  | flag (value : Bool)
  | names (value : List String)
  | statuses (value : List Status)
  | status (value : Status)

/-- The registered services with their traces. -/
structure Stage where
  services : List (Service Traces)
  traces : Traces

/-- How a step ended, what it called and what was said. -/
structure Result where
  outcome : Except Stop Answer
  calls : List String
  log : List Log.Entry

/-- A step that changes nothing. -/
def viewed (stage : Stage) (answer : Answer) : Stage × Result :=
  (stage, ⟨.ok answer, [], []⟩)

/-- A step that runs transitions of the services. -/
def driven (stage : Stage) (procedure : Procedure Traces Unit) : Stage × Result :=
  let ending := procedure { stage.traces with calls := [] }
  ({ stage with traces := ending.state },
    ⟨ending.outcome.map fun _ => .flag true, ending.state.calls, ending.log⟩)

/-- Register a service. -/
def registering (stage : Stage) (service : Service Traces) : Stage × Result :=
  match register stage.services service with
  | .ok services =>
      ({ stage with services := services }, ⟨.ok .nothing, [], [registered service.name]⟩)
  | .error fault => (stage, ⟨.error (.failed fault), [], []⟩)

/-- Take a step. -/
def take (subjects : List Subject) (stage : Stage) : Step → Stage × Result
  | .register place =>
      match subjects[place]? with
      | some subject => registering stage (subject.service place)
      | none => (stage, ⟨.error (.escaped .nameless), [], []⟩)
  | .get name =>
      match get? stage.services name with
      | some service => viewed stage (.status (service.status stage.traces))
      | none => viewed stage .nothing
  | .names => viewed stage (.names (stage.services.map Service.name))
  | .statuses => viewed stage (.statuses (Lifecycle.statuses stage.services stage.traces))
  | .allRunning => viewed stage (.flag (Lifecycle.allRunning stage.services stage.traces))
  | .initAll => driven stage (Lifecycle.initAll stage.services)
  | .startAll => driven stage (Lifecycle.startAll stage.services)
  | .stopAll => driven stage (Lifecycle.stopAll stage.services)

/-- Take steps one after the other. -/
def run (subjects : List Subject) : Stage → List Step → List Result
  | _, [] => []
  | stage, step :: rest =>
      let taken := take subjects stage step
      taken.2 :: run subjects taken.1 rest

/-- The results of a trial from its beginning. -/
def results (subjects : List Subject) (steps : List Step) : List Result :=
  run subjects ⟨[], .none⟩ steps

end AccountRegistry.Lifecycle.Trial
