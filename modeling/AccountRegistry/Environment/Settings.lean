import AccountRegistry.Address
import AccountRegistry.Environment.Loading
import AccountRegistry.Json.Printer
import AccountRegistry.Log.Level
import AccountRegistry.Number.OfText
import AccountRegistry.Registry.State
import AccountRegistry.Schema.Checked

/-!
# Settings

The variables that the registry reads, checked one by one: an issue is reported for each variable
that does not fit, and none for a variable that is not set.
-/

namespace AccountRegistry

/-- What kind of deployment a process belongs to. -/
inductive Mode where
  | development
  | production
  | test
  deriving DecidableEq, Repr, Inhabited

/-- The name of a mode. -/
def Mode.label : Mode → String
  | .development => "development"
  | .production => "production"
  | .test => "test"

/-- The settings of every process. -/
structure BaseSettings where
  mode : Mode
  level : Log.Level
  deriving DecidableEq, Repr, Inhabited

/-- The settings of a registry: where its spec is, and the addresses that take the place of those
of the spec. -/
structure RegistrySettings where
  base : BaseSettings
  specPath : Option String
  address : Option Int
  owner : Option Int
  deriving DecidableEq, Repr, Inhabited

/-- The settings of a process that listens for connections, with the number that it listens at. -/
structure ListenerSettings where
  base : BaseSettings
  number : Binary64
  deriving Repr, Inhabited

namespace Settings

/-- One of some options by its name, or a default for a variable that is not set. -/
def readOption {α : Type} (name : String) (options : List α) (label : α → String) (default : α)
    (environment : Environment) : Checked α :=
  match environment.get? name with
  | none => .valid default
  | some text =>
      match options.find? fun option => label option = text with
      | some option => .valid option
      | none => .issue [name] (.unlisted (options.map label) text)

/-- A variable that may not be set. -/
def readOptional {α : Type} (name : String) (read : String → Except Complaint α)
    (environment : Environment) : Checked (Option α) :=
  match environment.get? name with
  | none => .valid none
  | some text =>
      match read text with
      | .ok value => .valid (some value)
      | .error complaint => .issue [name] complaint

/-- A path: any text but the empty one. -/
def path (text : String) : Except Complaint String :=
  if text = "" then .error (.emptyText "String must contain at least 1 character(s)")
  else .ok text

/-- A native address. -/
def nativeAddress (text : String) : Except Complaint Int :=
  match Address.parseNative text with
  | .ok address => .ok address
  | .error fault => .error (.refused fault.message)

/-- The number that a process listens at. -/
def readListenerNumber (environment : Environment) : Checked Binary64 :=
  match environment.get? "PORT" with
  | none => .valid (Binary64.ofNat 8545)
  | some text =>
      match Binary64.ofText text with
      | .nan => .issue ["PORT"] (.wrongShape .number .notANumber)
      | number => .valid number

/-- The settings of every process. -/
def readBase (environment : Environment) : Checked BaseSettings :=
  ((readOption "NODE_ENV" [Mode.development, .production, .test] Mode.label .development
    environment).map BaseSettings.mk).apply
    (readOption "LOG_LEVEL" [Log.Level.trace, .debug, .info, .warn, .error, .silent]
      Log.Level.label .info environment)

/-- The settings of a registry. -/
def readRegistry (environment : Environment) : Checked RegistrySettings :=
  ((((readBase environment).map RegistrySettings.mk).apply
    (readOptional "REGISTRY_SPEC_PATH" path environment)).apply
    (readOptional "REGISTRY_ADDRESS" nativeAddress environment)).apply
    (readOptional "REGISTRY_OWNER" nativeAddress environment)

/-- The settings of a process that listens for connections. -/
def readListener (environment : Environment) : Checked ListenerSettings :=
  ((readBase environment).map ListenerSettings.mk).apply (readListenerNumber environment)

/-- The fault of an environment with issues, which are worded as JSON. -/
def issuesFault (issues : List Issue) : Fault :=
  .environment (JsonText.render (.list (issues.map Issue.toJson)))

/-- The settings that an environment gives, or the fault of its issues. -/
def load {α : Type} (read : Environment → Checked α) (environment : Environment) :
    Except Fault α :=
  (read environment).toExcept.mapError issuesFault

/-- The settings that an explicit environment gives alone, or else the one that was loaded.  A fault
of the loading counts in either case. -/
def loadAfter {α : Type} (read : Environment → Checked α) (loading : EnvironmentFile.Loading)
    (explicit : Option Environment) : Except Fault α :=
  match loading.fault with
  | some fault => .error fault
  | none => load read (explicit.getD loading.environment)

/-- The addresses of a registry's settings. -/
def overrides (settings : RegistrySettings) : Overrides :=
  ⟨settings.address, settings.owner⟩

end Settings

end AccountRegistry
