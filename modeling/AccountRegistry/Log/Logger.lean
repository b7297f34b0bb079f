import AccountRegistry.Log.Line

/-!
# The logger

Until it is made ready a logger writes to the console, at the level that the environment gives at
that moment; an unknown level counts as `info`.  From then on it writes records, at the level that
the environment gave when the logger was made, in letters of either case; an unknown level keeps it
from being made.
-/

namespace AccountRegistry.Log

/-- The level of the console in an environment. -/
def consoleLevel (environment : Environment) : Level :=
  (Level.ofText? (levelText environment)).getD .info

/-- The lines of an entry on the console. -/
def consoleLines (environment : Environment) (entry : Entry) : List Line :=
  if (consoleLevel environment).admits entry.severity then [consoleLine entry] else []

/-- A logger: the level of its records, and whether it writes them. -/
structure Logger where
  level : Level
  ready : Bool
  deriving DecidableEq, Repr, Inhabited

namespace Logger

/-- The fault of a level that is not known. -/
def unknownLevel (text : String) : Fault :=
  .plain ("default level:" ++ text ++ " must be included in custom levels")

/-- A new logger, which writes to the console. -/
def create (environment : Environment) : Except Fault Logger :=
  let text := levelText environment
  match Level.ofAnyCase? text with
  | some level => .ok ⟨level, false⟩
  | none => .error (unknownLevel text)

/-- The lines of an entry. -/
def lines (logger : Logger) (environment : Environment) (entry : Entry) : List Line :=
  if logger.ready then
    if logger.level.admits entry.severity then recordLines entry else []
  else consoleLines environment entry

/-- Whether an entry has the form in which the logger writes.  On the console its message takes a
text; as a record an error takes a cause that can be explained. -/
def hasForm (logger : Logger) (entry : Entry) : Bool :=
  if logger.ready then entry.severity != .error || (entry.args.take 1).all Value.isExplicable
  else entry.message.hasText

/-- Write an entry, if it is to be written.  One that does not have the form is a fault. -/
def write (logger : Logger) (environment : Environment) (entry : Entry) :
    Except Fault (List Line) :=
  let lines := logger.lines environment entry
  if lines.isEmpty || logger.hasForm entry then .ok lines else .error .textless

/-- The record of making a logger ready. -/
def readyRecord : Record :=
  ⟨Severity.info.number, some (.text "LoggerProvider initialized"), none, none⟩

/-- Make a logger ready: it writes records from here on, the first of which says so. -/
def makeReady (logger : Logger) : Logger × List Line :=
  ({ logger with ready := true },
    if logger.level.admits .info then [.record .output readyRecord] else [])

end Logger

/-- What a program does with its logger. -/
inductive Use where
  | ready
  | entry (entry : Entry)
  | assign (name value : String)

/-- A logger in its environment. -/
structure Session where
  logger : Logger
  environment : Environment

namespace Session

/-- The session after a use, with the lines that it wrote. -/
def take (session : Session) : Use → Except Fault (Session × List Line)
  | .ready =>
      let made := session.logger.makeReady
      .ok ({ session with logger := made.1 }, made.2)
  | .entry entry =>
      (session.logger.write session.environment entry).map fun lines => (session, lines)
  | .assign name value =>
      .ok ({ session with environment := session.environment.set name value }, [])

/-- The session after several uses, with the lines of each.  It ends at the first that fails. -/
def run (session : Session) : List Use → Except Fault (Session × List (List Line))
  | [] => .ok (session, [])
  | use :: rest =>
      match session.take use with
      | .error fault => .error fault
      | .ok (after, lines) =>
          (run after rest).map fun later => (later.1, lines :: later.2)

end Session

end AccountRegistry.Log
