import AccountRegistry.Fault
import AccountRegistry.Json.Basic
import AccountRegistry.Number.Shortest

/-!
# Views of values

Three ways to see a value: with its integers as hexadecimal text (`hexIntegers`), as JSON
(`toJson?`) and as plain text (`plainText`).  `IntegerFree` says that a value holds no integer at
any depth.
-/

namespace AccountRegistry

mutual

/-- The value with every integer as `0x` text; a fault becomes the record of its own fields. -/
def Value.hexIntegers : Value → Value
  | .absent => .absent
  | .null => .null
  | .bool b => .bool b
  | .number x => .number x
  | .integer n => .text (Digits.hexLiteral n)
  | .text s => .text s
  | .list items => .list (Value.hexItems items)
  | .record fields => .record (Value.hexFields fields)
  | .fault cause => .record (Fault.hexRecord cause)

/-- The fields of a fault besides its message; most have none. -/
def Fault.hexRecord : Fault → List (String × Value)
  | .registry code _ context =>
      [("code", .text code.label), ("context", context.hexIntegers),
       ("name", .text "RegistryError")]
  | .unlisted code _ context =>
      [("code", code.hexIntegers), ("context", context.hexIntegers),
       ("name", .text "RegistryError")]
  | .plain _ => []
  | .textless => []
  | .nameless => []
  | .directory =>
      [("errno", .number (Binary64.ofInt (-21))), ("code", .text "EISDIR"),
       ("syscall", .text "read")]
  | .environment _ => []
  | .vault cause => [("code", .text cause.code)]
  | .wordRange _ => []
  | .unsignedRange .. => []

/-- `hexIntegers` on each item. -/
def Value.hexItems : List Value → List Value
  | [] => []
  | item :: rest => item.hexIntegers :: Value.hexItems rest

/-- `hexIntegers` on the value of each field. -/
def Value.hexFields : List (String × Value) → List (String × Value)
  | [] => []
  | (key, value) :: rest => (key, value.hexIntegers) :: Value.hexFields rest

end

mutual

/-- No integer at any depth. -/
def Value.IntegerFree : Value → Prop
  | .integer _ => False
  | .list items => Value.ItemsIntegerFree items
  | .record fields => Value.FieldsIntegerFree fields
  | .fault (.registry _ _ context) => context.IntegerFree
  | .fault (.unlisted code _ context) => code.IntegerFree ∧ context.IntegerFree
  | _ => True

/-- No integer in any item. -/
def Value.ItemsIntegerFree : List Value → Prop
  | [] => True
  | item :: rest => item.IntegerFree ∧ Value.ItemsIntegerFree rest

/-- No integer in the value of any field. -/
def Value.FieldsIntegerFree : List (String × Value) → Prop
  | [] => True
  | (_, value) :: rest => value.IntegerFree ∧ Value.FieldsIntegerFree rest

end

mutual

/-- The value as JSON: nothing for an absent one, `null` for it in a list, no field for it in a
record.  An integer is the nearest number. -/
def Value.toJson? : Value → Option (Json Binary64)
  | .absent => none
  | .null => some .null
  | .bool b => some (.bool b)
  | .number x => some (.number x)
  | .integer n => some (.number (Binary64.ofInt n))
  | .text s => some (.text s)
  | .list items => some (.list (Value.jsonItems items))
  | .record fields => some (.record (Value.jsonFields fields))
  | .fault cause => some (.record (Fault.jsonRecord cause))

/-- The fields of a fault as JSON. -/
def Fault.jsonRecord : Fault → List (String × Json Binary64)
  | .registry code _ context =>
      ("code", .text code.label) ::
        ((context.toJson?.map fun json => ("context", json)).toList ++
          [("name", .text "RegistryError")])
  | .unlisted code _ context =>
      (code.toJson?.map fun json => ("code", json)).toList ++
        (context.toJson?.map fun json => ("context", json)).toList ++
        [("name", .text "RegistryError")]
  | .plain _ => []
  | .textless => []
  | .nameless => []
  | .directory =>
      [("errno", .number (Binary64.ofInt (-21))), ("code", .text "EISDIR"),
       ("syscall", .text "read")]
  | .environment _ => []
  | .vault cause => [("code", .text cause.code)]
  | .wordRange _ => []
  | .unsignedRange .. => []

/-- The items of a list as JSON. -/
def Value.jsonItems : List Value → List (Json Binary64)
  | [] => []
  | item :: rest => item.toJson?.getD .null :: Value.jsonItems rest

/-- The fields of a record as JSON. -/
def Value.jsonFields : List (String × Value) → List (String × Json Binary64)
  | [] => []
  | (key, value) :: rest =>
      match value.toJson? with
      | some json => (key, json) :: Value.jsonFields rest
      | none => Value.jsonFields rest

end

/-- The text of a fault: its kind, and its message if it has one. -/
def Fault.text (fault : Fault) : String :=
  if fault.message = "" then fault.kind else fault.kind ++ ": " ++ fault.message

mutual

/-- The value as plain text: the items of a list are separated by commas, and those that are null
or absent leave no text. -/
def Value.plainText : Value → String
  | .absent => "undefined"
  | .null => "null"
  | .bool b => if b then "true" else "false"
  | .number x => Shortest.text x
  | .integer n => Digits.decimal n
  | .text s => s
  | .list items => String.intercalate "," (Value.plainItems items)
  | .record _ => "[object Object]"
  | .fault cause => cause.text

/-- The texts of the items of a list. -/
def Value.plainItems : List Value → List String
  | [] => []
  | .absent :: rest => "" :: Value.plainItems rest
  | .null :: rest => "" :: Value.plainItems rest
  | item :: rest => item.plainText :: Value.plainItems rest

end

mutual

/-- Whether a value has a plain text.  A record has none if a field of its own stands in for its
`toString`; a list has one if its items have. -/
def Value.hasText : Value → Bool
  | .list items => Value.itemsHaveText items
  | .record fields => (fields.lookup "toString").isNone
  | _ => true

/-- Whether every item has a plain text. -/
def Value.itemsHaveText : List Value → Bool
  | [] => true
  | item :: rest => item.hasText && Value.itemsHaveText rest

end

/-- Whether a value says anything: it is neither absent nor null, false, zero, no number or an
empty text. -/
def Value.isTelling : Value → Bool
  | .absent => false
  | .null => false
  | .bool b => b
  | .number .nan => false
  | .number (.finite _ significand _) => significand != 0
  | .integer n => n != 0
  | .text s => s != ""
  | _ => true

/-- What was thrown as a fault: a fault is itself, anything else a failure known by its text. -/
def Value.asFault : Value → Fault
  | .fault cause => cause
  | value => if value.hasText then .plain value.plainText else .textless

end AccountRegistry
