import AccountRegistry.Json.Basic
import AccountRegistry.Number.Shortest
import AccountRegistry.Text.Digits
import AccountRegistry.Text.Units

/-!
# Writing JSON

The text of a JSON value on one line.  Numbers are written in their shortest decimal text, and as
`null` when they are not finite.
-/

namespace AccountRegistry.JsonText

/-- A character inside a string: quotes, backslashes and control characters are escaped. -/
def escape (c : Char) : List Char :=
  if c = '"' then ['\\', '"']
  else if c = '\\' then ['\\', '\\']
  else if c = '\n' then ['\\', 'n']
  else if c = '\r' then ['\\', 'r']
  else if c = '\t' then ['\\', 't']
  else if c = '\x08' then ['\\', 'b']
  else if c = '\x0c' then ['\\', 'f']
  else if c.toNat < 0x20 then '\\' :: 'u' :: Digits.hexFixed 4 c.toNat
  else [c]

/-- The characters inside a string; half a pair is written by its number. -/
def escapeAll : List Char → List Char
  | c :: next :: rest =>
      if c = Units.mark then
        match Units.half? next with
        | some half => '\\' :: 'u' :: Digits.hexFixed 4 half ++ escapeAll rest
        | none => c :: next :: escapeAll rest
      else escape c ++ escapeAll (next :: rest)
  | [c] => escape c
  | [] => []

/-- A string in quotes. -/
def quote (s : String) : String :=
  String.ofList ('"' :: escapeAll s.toList ++ ['"'])

/-- A number, or `null` when it is not finite. -/
def numberText : Binary64 → String
  | .finite negative significand exponent =>
      Shortest.text (.finite negative significand exponent)
  | _ => "null"

mutual

/-- The text of a value. -/
def render : Json Binary64 → String
  | .null => "null"
  | .bool b => if b then "true" else "false"
  | .number x => numberText x
  | .text s => quote s
  | .list items => "[" ++ String.intercalate "," (renderItems items) ++ "]"
  | .record fields => "\x7b" ++ String.intercalate "," (renderFields fields) ++ "\x7d"

/-- The texts of the items of a list. -/
def renderItems : List (Json Binary64) → List String
  | [] => []
  | item :: rest => render item :: renderItems rest

/-- The texts of the fields of a record. -/
def renderFields : List (String × Json Binary64) → List String
  | [] => []
  | (key, value) :: rest => (quote key ++ ":" ++ render value) :: renderFields rest

end

end AccountRegistry.JsonText
