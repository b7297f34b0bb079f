import AccountRegistry.Environment.Settings
import AccountRegistry.Log.Logger
import AccountRegistry.Registry.Wiring
import AccountRegistry.Spec.Loading

/-!
# The node

A process that runs one registry.  It comes up in two stages: the first reads the environment and
makes the logger ready, the second reads the spec and starts the registry.  Each stage either
leads on or ends the process with an exit code.  A running node ends when it is told to by one of
two signals.
-/

namespace AccountRegistry.Node

/-- A stage with what it wrote: where it led to, or the exit code of the process. -/
structure Stage (α : Type) where
  outcome : Except Nat α
  lines : List Log.Line

/-- A process whose environment was read. -/
structure Booted where
  logger : Log.Logger
  environment : Environment
  settings : RegistrySettings

/-- A process whose registry runs. -/
structure Running where
  logger : Log.Logger
  environment : Environment
  wiring : Wiring
  state : State

/-- The path of the spec. -/
def Booted.specPath (booted : Booted) : String :=
  booted.settings.specPath.getD "./registry-spec.json"

/-- The process ends because of an error. -/
def failed {α : Type} (logger : Log.Logger) (environment : Environment)
    (before : List Log.Entry) (message : String) (args : List Value) : Stage α :=
  let entries := before ++ [Log.Entry.mk .error (.text message) args]
  ⟨.error 1, entries.flatMap (logger.lines environment)⟩

/-- What is said about a fault that nothing handled. -/
def fatal : String := "Fatal error in main function"

/-- What is written about a key without a vault, whatever the level. -/
def warning (loading : EnvironmentFile.Loading) : List Log.Line :=
  if loading.lacksVault then [.console .info EnvironmentFile.lackingVault []] else []

/-- The stage with lines in front of its own. -/
def Stage.after {α : Type} (stage : Stage α) (lines : List Log.Line) : Stage α :=
  { stage with lines := lines ++ stage.lines }

/-- Read the environment and make the logger ready.  The level of the logger comes from the
environment as it was before the files added to it; an unknown one is a fault. -/
def boot (process : Environment) (file : Content) (vault : Option Content) :
    Except Fault (Stage Booted) :=
  (Log.Logger.create process).map fun logger =>
    let loading := EnvironmentFile.load process [file] vault
    let stage : Stage Booted :=
      match Settings.loadAfter Settings.readRegistry loading none with
      | .ok settings =>
          let made := logger.makeReady
          ⟨.ok ⟨made.1, loading.environment, settings⟩, made.2⟩
      | .error fault => failed logger loading.environment [] fatal [.fault fault]
    stage.after (warning loading)

/-- The status of a service as a value. -/
def statusValue (status : Lifecycle.Status) : Value :=
  .record [("name", .text status.name), ("initialized", .bool status.initialized),
    ("running", .bool status.running)]

/-- What a node says when its registry runs. -/
def startedEntry (launched : Launched) : Except Fault Log.Entry := do
  let identity := launched.wiring.identity
  let deployer ← Address.formatNative identity.deployer
  let owner ← Address.formatNative launched.state.owner
  return ⟨.info, "Registry node started",
    [.record [("id", .text identity.id), ("chainId", .integer identity.chainId),
      ("deployer", .text deployer), ("owner", .text owner),
      ("services", .list
        ((Lifecycle.statuses launched.wiring.roster launched.state).map statusValue))]]⟩

/-- Start the registry of a spec. -/
def launch (hash : Hash) (booted : Booted) (spec : Spec) : Stage Running :=
  let setup : Setup := ⟨spec, Settings.overrides booted.settings, [], true⟩
  let stop := failed booted.logger booted.environment
  match Launched.start hash setup with
  | (.error (.failed fault), log) => stop log "Failed to start registry services" [.fault fault]
  | (.error (.escaped fault), log) => stop log fatal [.fault fault]
  | (.ok launched, log) =>
      match startedEntry launched with
      | .error fault => stop log fatal [.fault fault]
      | .ok entry =>
          ⟨.ok ⟨booted.logger, booted.environment, launched.wiring, launched.state⟩,
            (log ++ [entry]).flatMap (booted.logger.lines booted.environment)⟩

/-- Read the spec from what is found at its path, and start its registry. -/
def start (hash : Hash) (booted : Booted) (content : Content) : Stage Running :=
  match Spec.load booted.specPath content with
  | .ok spec => launch hash booted spec
  | .error fault =>
      failed booted.logger booted.environment [] "Failed to load registry spec"
        [.fault fault, .record [("specPath", .text booted.specPath)]]

/-- Stop every service: the exit code, and what was written. -/
def Running.shutDown (running : Running) : Nat × List Log.Line :=
  let ending := Lifecycle.stopAll running.wiring.roster running.state
  let said : List Log.Entry := ⟨.info, "Shutting down registry node", []⟩ :: ending.log
  let write := List.flatMap (running.logger.lines running.environment)
  match ending.outcome with
  | .ok () => (0, write said)
  | .error (.failed _) => (1, write said)
  | .error (.escaped fault) =>
      (1, write (said ++ [⟨.error, "Error during shutdown", [.fault fault]⟩]))

/-- Whether a signal ends a node. -/
def ends (signal : String) : Bool :=
  signal = "SIGINT" || signal = "SIGTERM"

/-- A whole run: whether the registry ran, the exit code if the process ended, and what was
written. -/
structure Report where
  started : Bool
  exit : Option Nat
  lines : List Log.Line

/-- Run a node in a directory and deliver signals to it. -/
def run (hash : Hash) (process : Environment) (directory : String → Content)
    (signals : List String) : Except Fault Report :=
  (boot process (directory ".env") (directory ".env.vault").found?).map fun booting =>
    match booting.outcome with
    | .error code => ⟨false, some code, booting.lines⟩
    | .ok booted =>
        let starting := start hash booted (directory booted.specPath)
        let lines := booting.lines ++ starting.lines
        match starting.outcome with
        | .error code => ⟨false, some code, lines⟩
        | .ok running =>
            if signals.any ends then
              let ended := running.shutDown
              ⟨true, some ended.1, lines ++ ended.2⟩
            else ⟨true, none, lines⟩

end AccountRegistry.Node
