import AccountRegistry.Log.Abridged
import AccountRegistry.Log.Cause
import AccountRegistry.Log.Level

/-!
# Log lines

The two written forms of an entry.  On the console an entry is a text with its values; as a record
it is a line of JSON on a stream.  An error is recorded on both streams.
-/

namespace AccountRegistry.Log

/-- Where records are written. -/
inductive Stream where
  | output
  | errors
  deriving DecidableEq, Repr, Inhabited

/-- A record: its level as a number, its message if it has one, its arguments if it was made with
some, and its cause if it has one. -/
structure Record where
  level : Nat
  message : Option (Json Binary64)
  args : Option (List (Json Binary64))
  cause : Option (Json Binary64)

/-- A written line. -/
inductive Line where
  | console (severity : Severity) (text : String) (args : List Value)
  | record (stream : Stream) (record : Record)

/-- The name of a severity on the console. -/
def Severity.label : Severity → String
  | .debug => "DEBUG"
  | .info => "INFO"
  | .warn => "WARN"
  | .error => "ERROR"

/-- The number of a severity in records. -/
def Severity.number : Severity → Nat
  | .debug => 20
  | .info => 30
  | .warn => 40
  | .error => 50

/-- The console line of an entry. -/
def consoleLine (entry : Entry) : Line :=
  .console entry.severity ("[" ++ entry.severity.label ++ "] " ++ entry.message.plainText)
    entry.args

/-- The arguments of a record: integers as hexadecimal text, and null for what is absent. -/
def recordArgs (args : List Value) : List (Json Binary64) :=
  Value.jsonItems (Value.hexItems args)

/-- What a cause says of itself. -/
def ownMessage : Value → Value
  | .fault cause => .text cause.message
  | .record fields => (Value.field? fields "message").getD .absent
  | _ => .absent

/-- The message of a record: an error without a message takes that of its cause. -/
def recordedMessage (entry : Entry) : Value :=
  match entry.severity, entry.message with
  | .error, .absent => (entry.args.head?.map ownMessage).getD .absent
  | _, message => message

/-- The record of an entry. -/
def recordOf (entry : Entry) : Record :=
  let message := (recordedMessage entry).written?
  match entry.severity with
  | .error =>
      ⟨entry.severity.number, message, some (recordArgs (entry.args.drop 1)),
        entry.args.head?.bind fun cause => causeJson? cause.explained⟩
  | severity => ⟨severity.number, message, some (recordArgs entry.args), none⟩

/-- The streams that entries of a severity are recorded on. -/
def streams : Severity → List Stream
  | .error => [.output, .errors]
  | _ => [.output]

/-- The record lines of an entry. -/
def recordLines (entry : Entry) : List Line :=
  (streams entry.severity).map fun stream => .record stream (recordOf entry)

end AccountRegistry.Log
