import AccountRegistry.Json.Printer
import AccountRegistry.Log.Line

/-!
# The text of log lines

A console line is its text with the plain texts of its values; a record is JSON on one line.
-/

namespace AccountRegistry.Log

/-- A record as JSON. -/
def Record.toJson (record : Record) : Json Binary64 :=
  .record
    ([("level", .number (Binary64.ofNat record.level)), ("component", .text "evm-registry")] ++
      (record.cause.map fun cause => ("err", cause)).toList ++
      (record.args.map fun args => ("args", .list args)).toList ++
      (record.message.map fun message => ("msg", message)).toList)

/-- The text of a line. -/
def Line.text : Line → String
  | .console _ text args => String.intercalate " " (text :: args.map Value.plainText)
  | .record _ entry => JsonText.render entry.toJson

/-- The stream that a line is written on. -/
def Line.stream : Line → Stream
  | .console .error _ _ => .errors
  | .console .warn _ _ => .errors
  | .console _ _ _ => .output
  | .record target _ => target

end AccountRegistry.Log
