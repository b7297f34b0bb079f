import AccountRegistry.Json.Basic
import AccountRegistry.Text.Digits

/-!
# Schema issues

What a value can be found to lack when it is checked against a schema, where it was found, and
how a list of such issues is written as JSON.
-/

namespace AccountRegistry

/-- The shape of a value, as issues name it. -/
inductive Shape where
  | absent
  | null
  | bool
  | number
  | notANumber
  | text
  | list
  | record
  deriving DecidableEq, Repr, Inhabited

namespace Shape

/-- The name of a shape. -/
def label : Shape → String
  | .absent => "undefined"
  | .null => "null"
  | .bool => "boolean"
  | .number => "number"
  | .notANumber => "nan"
  | .text => "string"
  | .list => "array"
  | .record => "object"

/-- The shape of a JSON value, or of a missing one. -/
def of : Option (Json Binary64) → Shape
  | none => .absent
  | some .null => .null
  | some (.bool _) => .bool
  | some (.number _) => .number
  | some (.text _) => .text
  | some (.list _) => .list
  | some (.record _) => .record

end Shape

/-- What is wrong with a value.

* `wrongShape`: it has another shape than the expected one.
* `neither`: it is neither a text nor a number.
* `fraction`, `tooSmall`, `tooBig`: a number is not whole, below a minimum, above a maximum.
* `malformed`: a text is not of the required form.
* `refused`: a value of the right form fails a further rule.
* `emptyText`: a text has no characters.
* `unknownKeys`: a record has fields that the schema does not know.
* `unlisted`: a text is not one of the options. -/
inductive Complaint where
  | wrongShape (expected received : Shape)
  | neither (received : Shape)
  | fraction
  | tooSmall (minimum : Int)
  | tooBig (maximum : Int)
  | malformed (message : String)
  | refused (message : String)
  | emptyText (message : String)
  | unknownKeys (keys : List String)
  | unlisted (options : List String) (received : String)
  deriving DecidableEq, Repr, Inhabited

/-- A complaint about the value at a path of keys. -/
structure Issue where
  path : List String
  complaint : Complaint
  deriving DecidableEq, Repr, Inhabited

namespace Issue

/-- A key or option in single quotes. -/
def quoted (name : String) : String :=
  "'" ++ name ++ "'"

/-- The message about an unexpected shape. -/
def shapeMessage (expected received : Shape) : String :=
  if received = .absent then "Required"
  else "Expected " ++ expected.label ++ ", received " ++ received.label

/-- The fields that say an expected and a received shape. -/
def shapeFields (expected received : Shape) : List (String × Json Binary64) :=
  [("code", .text "invalid_type"), ("expected", .text expected.label),
   ("received", .text received.label), ("message", .text (shapeMessage expected received))]

/-- The fields of a bound that was not kept. -/
def boundFields (code bound type : String) (limit : Int) (message : String) :
    List (String × Json Binary64) :=
  [("code", .text code), (bound, .number (Binary64.ofInt limit)), ("type", .text type),
   ("inclusive", .bool true), ("exact", .bool false), ("message", .text message)]

/-- The path as JSON. -/
def pathField (path : List String) : String × Json Binary64 :=
  ("path", .list (path.map .text))

/-- One of the attempts that an issue about several shapes lists. -/
def attempt (path : List String) (expected received : Shape) : Json Binary64 :=
  .record [("name", .text "ZodError"),
    ("issues", .list [.record (shapeFields expected received ++ [pathField path])])]

/-- The fields of an issue apart from its path. -/
def complaintFields (path : List String) : Complaint → List (String × Json Binary64)
  | .wrongShape expected received => shapeFields expected received
  | .neither received =>
      [("code", .text "invalid_union"),
       ("unionErrors", .list [attempt path .text received, attempt path .number received]),
       ("message", .text "Invalid input")]
  | .fraction =>
      [("code", .text "invalid_type"), ("expected", .text "integer"),
       ("received", .text "float"), ("message", .text "Expected integer, received float")]
  | .tooSmall minimum =>
      boundFields "too_small" "minimum" "number" minimum
        ("Number must be greater than or equal to " ++ Digits.decimal minimum)
  | .tooBig maximum =>
      boundFields "too_big" "maximum" "number" maximum
        ("Number must be less than or equal to " ++ Digits.decimal maximum)
  | .malformed message =>
      [("validation", .text "regex"), ("code", .text "invalid_string"), ("message", .text message)]
  | .refused message => [("code", .text "custom"), ("message", .text message)]
  | .emptyText message => boundFields "too_small" "minimum" "string" 1 message
  | .unknownKeys keys =>
      [("code", .text "unrecognized_keys"), ("keys", .list (keys.map .text)),
       ("message", .text ("Unrecognized key(s) in object: " ++
         String.intercalate ", " (keys.map quoted)))]
  | .unlisted options received =>
      [("received", .text received), ("code", .text "invalid_enum_value"),
       ("options", .list (options.map .text)),
       ("message", .text ("Invalid enum value. Expected " ++
         String.intercalate " | " (options.map quoted) ++ ", received " ++ quoted received))]

/-- An issue as JSON. -/
def toJson (issue : Issue) : Json Binary64 :=
  .record (complaintFields issue.path issue.complaint ++ [pathField issue.path])

/-- The path of an issue as one text. -/
def location (issue : Issue) : String :=
  String.intercalate "." issue.path

end Issue

end AccountRegistry
