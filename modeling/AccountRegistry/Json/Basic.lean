import AccountRegistry.Number.Binary64

/-!
# JSON values

A JSON value over a type of numbers.  A text is parsed into `Json Literal`, which keeps each
number as it was written; `Json.map Literal.nearest` reads the numbers as the nearest binary
floating point numbers.  Fields of a record stay as written, repeated keys included: the last
field of a key counts.
-/

namespace AccountRegistry

inductive Json (ν : Type) where
  | null
  | bool (value : Bool)
  | number (value : ν)
  | text (value : String)
  | list (items : List (Json ν))
  | record (fields : List (String × Json ν))
  deriving Inhabited

/-- A number as it is written: its whole part, the digits of its fraction (their value and how
many they are) and its exponent. -/
structure Literal where
  negative : Bool
  whole : Nat
  fraction : Option (Nat × Nat)
  exponent : Option Int
  deriving DecidableEq, Repr, Inhabited

namespace Literal

/-- The written digits without the decimal point. -/
def significand (literal : Literal) : Nat :=
  match literal.fraction with
  | none => literal.whole
  | some (digits, count) => literal.whole * Nat.pow 10 count + digits

/-- The power of ten that the written digits are multiplied by. -/
def scale (literal : Literal) : Int :=
  literal.exponent.getD 0 - ((literal.fraction.map Prod.snd).getD 0 : Nat)

/-- The binary floating point number nearest to the written one. -/
def nearest (literal : Literal) : Binary64 :=
  Binary64.ofScientific literal.negative literal.significand literal.scale

end Literal

namespace Json

variable {ν μ : Type}

mutual

/-- The value with its numbers replaced. -/
def map (f : ν → μ) : Json ν → Json μ
  | .null => .null
  | .bool b => .bool b
  | .number x => .number (f x)
  | .text s => .text s
  | .list items => .list (mapItems f items)
  | .record fields => .record (mapFields f fields)

/-- `map` on each item of a list. -/
def mapItems (f : ν → μ) : List (Json ν) → List (Json μ)
  | [] => []
  | item :: rest => item.map f :: mapItems f rest

/-- `map` on the value of each field. -/
def mapFields (f : ν → μ) : List (String × Json ν) → List (String × Json μ)
  | [] => []
  | (key, value) :: rest => (key, value.map f) :: mapFields f rest

end

mutual

/-- The value without the fields of a key, at any depth. -/
def without (key : String) : Json ν → Json ν
  | .list items => .list (withoutInItems key items)
  | .record fields => .record (withoutFields key fields)
  | other => other

/-- `without` on each item of a list. -/
def withoutInItems (key : String) : List (Json ν) → List (Json ν)
  | [] => []
  | item :: rest => item.without key :: withoutInItems key rest

/-- The fields of other keys, with `without` on their values. -/
def withoutFields (key : String) : List (String × Json ν) → List (String × Json ν)
  | [] => []
  | (other, value) :: rest =>
      if other = key then withoutFields key rest
      else (other, value.without key) :: withoutFields key rest

end

/-- The value that counts for a key: that of its last field. -/
def lookup (fields : List (String × Json ν)) (key : String) : Option (Json ν) :=
  fields.foldl (fun found field => if field.1 = key then some field.2 else found) none

/-- The field of a record; `none` for an absent key and for values that are no record. -/
def field? (key : String) : Json ν → Option (Json ν)
  | .record fields => lookup fields key
  | _ => none

/-- The number that a key writes when it is the canonical decimal of an index below `2 ^ 32 - 1`.
-/
def index? (key : String) : Option Nat :=
  match key.toNat? with
  | some n => if n < 0xffffffff ∧ Nat.repr n = key then some n else none
  | none => none

/-- Insert an index key among index keys in ascending order. -/
def insertIndex (n : Nat) (key : String) : List (Nat × String) → List (Nat × String)
  | [] => [(n, key)]
  | (m, other) :: rest =>
      if n < m then (n, key) :: (m, other) :: rest else (m, other) :: insertIndex n key rest

/-- The keys in the order in which a record lists them: indices first and ascending, then the
others in the order of their first fields. -/
def orderedKeys (keys : List String) : List String :=
  let indexed := keys.foldr (fun key found =>
    match index? key with
    | some n => insertIndex n key found
    | none => found) []
  indexed.map Prod.snd ++ keys.filter fun key => (index? key).isNone

/-- The keys of a record, each once. -/
def keys (fields : List (String × Json ν)) : List String :=
  orderedKeys (fields.map Prod.fst).eraseDups

end Json

end AccountRegistry
