import AccountRegistry.Procedure

/-!
# Lifecycle

Services that are initialized, started and stopped together.  They are initialized and started in
the order in which they were registered, up to the first that fails; they are stopped in the
reverse order, each of them, whatever fails.
-/

namespace AccountRegistry.Lifecycle

/-- What a service has been through. -/
structure Status where
  name : String
  initialized : Bool
  running : Bool
  deriving DecidableEq, Repr, Inhabited

/-- A service on a state: its three transitions and the view of its flags. -/
structure Service (σ : Type) where
  name : String
  init : Procedure σ Unit
  start : Procedure σ Unit
  stop : Procedure σ Unit
  initialized : σ → Bool
  running : σ → Bool

variable {σ : Type}

/-- The status of a service. -/
def Service.status (service : Service σ) (state : σ) : Status :=
  ⟨service.name, service.initialized state, service.running state⟩

/-- The registered service of a name. -/
def get? (services : List (Service σ)) (name : String) : Option (Service σ) :=
  services.find? fun service => service.name = name

/-- Register a service behind the others; a name can be registered once. -/
def register (services : List (Service σ)) (service : Service σ) :
    Except Fault (List (Service σ)) :=
  if services.any fun other => other.name = service.name then
    .error (.plain ("Service with name '" ++ service.name ++ "' is already registered"))
  else .ok (services ++ [service])

/-- What is said when a service was registered. -/
def registered (name : String) : Log.Entry :=
  ⟨.debug, "Service registered", [.record [("name", .text name)]]⟩

/-- Run one transition of each service in order, up to the first that fails. -/
def runInOrder (transition : Service σ → Procedure σ Unit) (complaint : String) :
    List (Service σ) → Procedure σ Unit
  | [] => pure ()
  | service :: rest => do
      match ← (transition service).attempt with
      | .ok () => runInOrder transition complaint rest
      | .error fault =>
          Procedure.note .error complaint [.fault fault, .record [("name", .text service.name)]]
          Procedure.fail fault

/-- Initialize every service. -/
def initAll (services : List (Service σ)) : Procedure σ Unit :=
  runInOrder Service.init "Error initializing service" services

/-- Start every service. -/
def startAll (services : List (Service σ)) : Procedure σ Unit :=
  runInOrder Service.start "Error starting service" services

/-- Stop services in order; the faults of those that failed. -/
def stopEach : List (Service σ) → Procedure σ (List Fault)
  | [] => pure []
  | service :: rest => do
      let result ← service.stop.attempt
      let faults ← stopEach rest
      return match result with
        | .ok () => faults
        | .error fault => fault :: faults

/-- Say each fault to the log. -/
def noteEach (message : String) : List Fault → Procedure σ Unit
  | [] => pure ()
  | fault :: rest => do
      Procedure.note .error message [.fault fault]
      noteEach message rest

/-- Stop every service, the last registered first, and end with the first fault if any failed. -/
def stopAll (services : List (Service σ)) : Procedure σ Unit := do
  let faults ← stopEach services.reverse
  noteEach "Error stopping service" faults
  match faults with
  | [] => pure ()
  | fault :: _ => Procedure.fail fault

/-- The status of every service in the order of registration. -/
def statuses (services : List (Service σ)) (state : σ) : List Status :=
  services.map fun service => service.status state

/-- Whether every service runs. -/
def allRunning (services : List (Service σ)) (state : σ) : Bool :=
  services.all fun service => service.running state

end AccountRegistry.Lifecycle
