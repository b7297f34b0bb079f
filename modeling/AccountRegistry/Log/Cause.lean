import AccountRegistry.Log.Reserved
import AccountRegistry.Value

/-!
# Causes

How the cause of an error is written.  A cause *explains itself* if it is a fault or a record with
a textual `message`.  Such a cause is written with its type, its message followed by those of its
own causes, the trace of where it arose, and its other fields; any other value is written as it is.
-/

namespace AccountRegistry

namespace Value

/-- The value of the first field of a key. -/
def field? (fields : List (String × Value)) (key : String) : Option Value :=
  fields.lookup key

/-- The textual message of a record. -/
def message? (fields : List (String × Value)) : Option String :=
  match field? fields "message" with
  | some (.text message) => some message
  | _ => none

/-- Whether a value explains itself. -/
def explains : Value → Bool
  | .fault _ => true
  | .record fields => (message? fields).isSome
  | _ => false

mutual

/-- The message of a value that explains itself, followed by those of its causes. -/
def messages? : Value → Option String
  | .fault cause => some cause.message
  | .record fields =>
      (message? fields).map fun message =>
        match causeMessages? fields with
        | some more => message ++ ": " ++ more
        | none => message
  | _ => none

/-- The messages of the field `cause`. -/
def causeMessages? : List (String × Value) → Option String
  | [] => none
  | (key, value) :: rest => if key = "cause" then value.messages? else causeMessages? rest

end

/-- The type of a record that explains itself: that of a plain record, unless it has a
`constructor` of its own; then its name stands for it. -/
def recordType (fields : List (String × Value)) : Value :=
  match field? fields "constructor" with
  | none => .text "Object"
  | some _ => (field? fields "name").getD .absent

/-- The type of a record that explains itself, as its first field.  A type that is absent leaves the
place to a field `type` of the record's own. -/
def typeFields (fields : List (String × Value)) : List (String × Value) :=
  match recordType fields, field? fields "type" with
  | .absent, some _ => []
  | type, _ => [("type", type)]

/-- What a record says under `stack`, or an empty text. -/
def ownTrace (fields : List (String × Value)) : Value :=
  match field? fields "stack" with
  | some stack => if stack.isTelling then stack else .text ""
  | none => .text ""

/-- The trace of a record: its own, or a text if it has a cause, since the two traces are joined
then.  What the text says does not matter. -/
def trace (fields : List (String × Value)) : Value :=
  match causeMessages? fields with
  | some _ => .text ""
  | none => ownTrace fields

mutual

/-- Whether the traces of a value and its causes have texts. -/
def tracesHaveText : Value → Bool
  | .record fields => (ownTrace fields).hasText && causeTracesHaveText fields
  | _ => true

/-- `tracesHaveText` on the field `cause`, if that explains itself. -/
def causeTracesHaveText : List (String × Value) → Bool
  | [] => true
  | (key, value) :: rest =>
      if key = "cause" then !value.explains || value.tracesHaveText else causeTracesHaveText rest

end

/-- Whether a record has a trace: with a cause it takes texts to be joined. -/
def hasTrace (fields : List (String × Value)) : Bool :=
  (causeMessages? fields).isNone || tracesHaveText (.record fields)

/-- The keys of a record that do not appear besides its type and messages. -/
def hiddenKeys (fields : List (String × Value)) : List String :=
  let type := match recordType fields with
    | .absent => []
    | _ => ["type"]
  let errors := match field? fields "errors" with
    | some (.list _) => ["aggregateErrors"]
    | _ => []
  type ++ errors ++ ["message", "stack", "raw"] ++ Log.reserved

/-- The type, message and trace of a fault. -/
def heading (cause : Fault) : List (String × Value) :=
  [("type", .text cause.kind), ("message", .text cause.message), ("stack", .text "")]

/-- The fields of a record that explains itself: its type, messages and trace, the faults that it
lists, and its others.  Any other record keeps its fields. -/
def selfExplained (fields errors others : List (String × Value)) : List (String × Value) :=
  match messages? (.record fields) with
  | none => fields
  | some message =>
      typeFields fields ++ [("message", .text message), ("stack", trace fields)] ++ errors ++ others

end Value

mutual

/-- The value as a cause. -/
def Value.explained : Value → Value
  | .absent => .absent
  | .null => .null
  | .bool b => .bool b
  | .number x => .number x
  | .integer n => .integer n
  | .text s => .text s
  | .list items => .list items
  | .record fields =>
      .record (Value.selfExplained fields (Value.listedErrors fields)
        (Value.explainedFields (Value.hiddenKeys fields) fields))
  | .fault cause => .record (Fault.explainedFields cause)

/-- The fields of a fault as a cause. -/
def Fault.explainedFields : Fault → List (String × Value)
  | .registry code message context =>
      Value.heading (.registry code message context) ++
        [("code", .text code.label), ("context", context.explained),
         ("name", .text "RegistryError")]
  | .unlisted code message context =>
      Value.heading (.unlisted code message context) ++
        [("code", code.explained), ("context", context.explained),
         ("name", .text "RegistryError")]
  | .directory => Value.heading .directory ++ Fault.hexRecord .directory
  | .plain message => Value.heading (.plain message)
  | .textless => Value.heading .textless
  | .nameless => Value.heading .nameless
  | .environment message => Value.heading (.environment message)
  | .vault cause => Value.heading (.vault cause) ++ Fault.hexRecord (.vault cause)
  | .wordRange value => Value.heading (.wordRange value)
  | .unsignedRange value bits => Value.heading (.unsignedRange value bits)

/-- The items of the field `errors` as causes. -/
def Value.listedErrors : List (String × Value) → List (String × Value)
  | [] => []
  | (key, .list items) :: rest =>
      if key = "errors" then [("aggregateErrors", .list (Value.explainedItems items))]
      else Value.listedErrors rest
  | _ :: rest => Value.listedErrors rest

/-- Each item as a cause. -/
def Value.explainedItems : List Value → List Value
  | [] => []
  | item :: rest => item.explained :: Value.explainedItems rest

/-- The fields that are not hidden, each as a cause.  The field `cause` is left out if it explains
itself, since its message has been added to that of the record. -/
def Value.explainedFields (hidden : List String) :
    List (String × Value) → List (String × Value)
  | [] => []
  | (key, value) :: rest =>
      if hidden.contains key || (key = "cause" && value.explains) then
        Value.explainedFields hidden rest
      else (key, value.explained) :: Value.explainedFields hidden rest

end

mutual

/-- Whether a value can be written as a cause: every record within it that explains itself has a
trace. -/
def Value.isExplicable : Value → Bool
  | .record fields =>
      (Value.message? fields).isNone ||
        (Value.hasTrace fields && Value.listedAreExplicable fields &&
          Value.fieldsAreExplicable (Value.hiddenKeys fields) fields)
  | .fault (.registry _ _ context) => context.isExplicable
  | .fault (.unlisted code _ context) => code.isExplicable && context.isExplicable
  | _ => true

/-- `isExplicable` on the items of the field `errors`. -/
def Value.listedAreExplicable : List (String × Value) → Bool
  | [] => true
  | (key, .list items) :: rest =>
      if key = "errors" then Value.itemsAreExplicable items else Value.listedAreExplicable rest
  | _ :: rest => Value.listedAreExplicable rest

/-- `isExplicable` on each item. -/
def Value.itemsAreExplicable : List Value → Bool
  | [] => true
  | item :: rest => item.isExplicable && Value.itemsAreExplicable rest

/-- `isExplicable` on the fields that are written as causes. -/
def Value.fieldsAreExplicable (hidden : List String) : List (String × Value) → Bool
  | [] => true
  | (key, value) :: rest =>
      (hidden.contains key || (key = "cause" && value.explains) || value.isExplicable) &&
        Value.fieldsAreExplicable hidden rest

end

end AccountRegistry
