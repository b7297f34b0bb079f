import AccountRegistry.Environment.Basic
import AccountRegistry.Log.Entry
import AccountRegistry.Log.Reserved

/-!
# Log levels

A level is the least severity that is written.  It is given by an environment variable, in which
the registry's own variable comes before the general one.
-/

namespace AccountRegistry.Log

/-- The levels from the one that writes everything to the one that writes nothing. -/
inductive Level where
  | trace
  | debug
  | info
  | warn
  | error
  | fatal
  | silent
  deriving DecidableEq, Repr, Inhabited

namespace Level

/-- Every level. -/
def all : List Level :=
  [.trace, .debug, .info, .warn, .error, .fatal, .silent]

/-- The name of a level. -/
def label : Level → String
  | .trace => "trace"
  | .debug => "debug"
  | .info => "info"
  | .warn => "warn"
  | .error => "error"
  | .fatal => "fatal"
  | .silent => "silent"

/-- The place of a level among all levels. -/
def rank : Level → Nat
  | .trace => 0
  | .debug => 1
  | .info => 2
  | .warn => 3
  | .error => 4
  | .fatal => 5
  | .silent => 6

/-- The level with a name. -/
def ofLabel? (label : String) : Option Level :=
  all.find? fun level => level.label = label

@[simp] theorem ofLabel?_label (level : Level) : ofLabel? level.label = some level := by
  cases level <;> rfl

/-- The level that a text asks for.  A reserved name is known but names no level: nothing is
written under it. -/
def ofText? (text : String) : Option Level :=
  match ofLabel? text with
  | some level => some level
  | none => if isReserved text then some .silent else none

/-- The text in lower case. -/
def lowered (text : String) : String :=
  String.ofList (text.toList.map Char.toLower)

/-- The level that a text asks for in letters of either case; `silent` is the one level that has to
be written in lower case. -/
def ofAnyCase? (text : String) : Option Level :=
  if lowered text = silent.label then ofText? text
  else (ofText? (lowered text)).or (ofText? text)

@[simp] theorem ofAnyCase?_label (level : Level) : ofAnyCase? level.label = some level := by
  cases level <;> decide +kernel

end Level

/-- The level of the entries of a severity. -/
def Severity.level : Severity → Level
  | .debug => .debug
  | .info => .info
  | .warn => .warn
  | .error => .error

/-- Whether entries of a severity are written at a level. -/
def Level.admits (level : Level) (severity : Severity) : Bool :=
  level.rank ≤ severity.level.rank

/-- The text that an environment gives for the level; an empty value counts as none. -/
def levelText (environment : Environment) : String :=
  match environment.nonEmpty? "PINO_LEVEL" with
  | some text => text
  | none => (environment.nonEmpty? "LOG_LEVEL").getD "info"

end AccountRegistry.Log
