import AccountRegistry.Text.Units
import AccountRegistry.Value

/-!
# Abridged values

A value that holds an integer is logged in an abridged form: integers as the nearest numbers,
the fields of a record in the order of their keys, no more than five levels of lists and records,
and no more than about a hundred entries of each.
-/

namespace AccountRegistry

mutual

/-- Whether a value holds an integer at any depth. -/
def Value.holdsInteger : Value → Bool
  | .integer _ => true
  | .list items => Value.itemsHoldInteger items
  | .record fields => Value.fieldsHoldInteger fields
  | .fault (.registry _ _ context) => context.holdsInteger
  | .fault (.unlisted code _ context) => code.holdsInteger || context.holdsInteger
  | _ => false

/-- Whether an item holds an integer. -/
def Value.itemsHoldInteger : List Value → Bool
  | [] => false
  | item :: rest => item.holdsInteger || Value.itemsHoldInteger rest

/-- Whether the value of a field holds an integer. -/
def Value.fieldsHoldInteger : List (String × Value) → Bool
  | [] => false
  | (_, value) :: rest => value.holdsInteger || Value.fieldsHoldInteger rest

end

namespace Log.Abridged

/-- How many entries of a list or record are written. -/
def breadth : Nat := 100

/-- What is said about entries that are left out. -/
def leftOut (count : Nat) : String :=
  Nat.repr count ++ (if count = 1 then " item" else " items") ++ " not stringified"

/-- A list of at most `breadth` items; one item too many goes unmentioned. -/
def list (items : List (Option (Json Binary64))) : Json Binary64 :=
  let shown := (items.take breadth).map fun item => item.getD .null
  if items.length ≤ breadth + 1 then .list shown
  else .list (shown ++ [.text ("... " ++ leftOut (items.length - breadth - 1))])

/-- A record of at most `breadth` fields in the order of their keys. -/
def record (fields : List (String × Option (Json Binary64))) : Json Binary64 :=
  let sorted := fields.mergeSort fun first second => Units.ordered first.1 second.1
  let shown := (sorted.take breadth).filterMap fun field => field.2.map fun json => (field.1, json)
  if fields.length ≤ breadth then .record shown
  else .record (shown ++ [("...", .text (leftOut (fields.length - breadth)))])

end Log.Abridged

mutual

/-- The value with as many levels of lists and records as are left. -/
def Value.abridged (levels : Nat) : Value → Option (Json Binary64)
  | .absent => none
  | .null => some .null
  | .bool b => some (.bool b)
  | .number x => some (.number x)
  | .integer n => some (.number (Binary64.ofInt n))
  | .text s => some (.text s)
  | .list items =>
      if items.isEmpty then some (.list [])
      else if levels = 0 then some (.text "[Array]")
      else some (Log.Abridged.list (Value.abridgedItems (levels - 1) items))
  | .record fields =>
      if fields.isEmpty then some (.record [])
      else if levels = 0 then some (.text "[Object]")
      else some (Log.Abridged.record (Value.abridgedFields (levels - 1) fields))
  | .fault cause => some (Fault.abridged levels cause)

/-- The fields of a fault in abridged form. -/
def Fault.abridged (levels : Nat) : Fault → Json Binary64
  | .registry code _ context =>
      if levels = 0 then .text "[Object]"
      else
        Log.Abridged.record
          [("code", some (.text code.label)), ("context", context.abridged (levels - 1)),
           ("name", some (.text "RegistryError"))]
  | .unlisted code _ context =>
      if levels = 0 then .text "[Object]"
      else
        Log.Abridged.record
          [("code", code.abridged (levels - 1)), ("context", context.abridged (levels - 1)),
           ("name", some (.text "RegistryError"))]
  | _ => .record []

/-- The items of a list in abridged form. -/
def Value.abridgedItems (levels : Nat) : List Value → List (Option (Json Binary64))
  | [] => []
  | item :: rest => item.abridged levels :: Value.abridgedItems levels rest

/-- The fields of a record in abridged form. -/
def Value.abridgedFields (levels : Nat) :
    List (String × Value) → List (String × Option (Json Binary64))
  | [] => []
  | (key, value) :: rest => (key, value.abridged levels) :: Value.abridgedFields levels rest

end

/-- The JSON that a value is written as: in full, or abridged if it holds an integer. -/
def Value.written? (value : Value) : Option (Json Binary64) :=
  if value.holdsInteger then value.abridged 5 else value.toJson?

/-- The JSON that a cause is written as.  Its traces are left out last: until then each counts as
a field. -/
def Log.causeJson? (cause : Value) : Option (Json Binary64) :=
  cause.written?.map (Json.without "stack")

end AccountRegistry
