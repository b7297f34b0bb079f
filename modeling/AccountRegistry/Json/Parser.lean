import AccountRegistry.Json.Basic
import AccountRegistry.Text.Digits
import AccountRegistry.Text.Units

/-!
# Reading JSON

A strict reader of JSON texts: no comments, no commas at the end, no byte order mark, no control
characters in strings.  Each function takes the characters that are left and returns what follows
what it read.  Nesting is bounded by the length of the text, since every value takes a character.
-/

namespace AccountRegistry.JsonText

open Digits

/-- Why a text is no JSON: its rest from the first character that does not fit. -/
structure Malformed where
  rest : List Char
  deriving Repr

/-- The text without the blank space in front of it. -/
def skipBlank : List Char → List Char
  | c :: rest =>
      if c == ' ' || c == '\t' || c == '\n' || c == '\r' then skipBlank rest else c :: rest
  | [] => []

/-- The whole part of a number: a zero, or digits that do not start with one. -/
def readWhole : List Char → Except Malformed (Nat × List Char)
  | '0' :: rest => .ok (0, rest)
  | text =>
      match digitRun text 0 0 with
      | (_, 0, rest) => .error ⟨rest⟩
      | (value, _ + 1, rest) => .ok (value, rest)

/-- The fraction of a number, if it has one. -/
def readFraction : List Char → Except Malformed (Option (Nat × Nat) × List Char)
  | '.' :: text =>
      match digitRun text 0 0 with
      | (_, 0, rest) => .error ⟨rest⟩
      | (value, count + 1, rest) => .ok (some (value, count + 1), rest)
  | text => .ok (none, text)

/-- The digits of an exponent. -/
def readPower (negative : Bool) (text : List Char) : Except Malformed (Option Int × List Char) :=
  match digitRun text 0 0 with
  | (_, 0, rest) => .error ⟨rest⟩
  | (value, _ + 1, rest) => .ok (some (if negative then -(value : Int) else value), rest)

/-- The exponent of a number, if it has one. -/
def readExponent : List Char → Except Malformed (Option Int × List Char)
  | c :: text =>
      if c == 'e' || c == 'E' then
        match text with
        | '+' :: rest => readPower false rest
        | '-' :: rest => readPower true rest
        | rest => readPower false rest
      else .ok (none, c :: text)
  | [] => .ok (none, [])

/-- The unsigned part of a number. -/
def readUnsigned (negative : Bool) (text : List Char) : Except Malformed (Literal × List Char) := do
  let (whole, afterWhole) ← readWhole text
  let (fraction, afterFraction) ← readFraction afterWhole
  let (exponent, after) ← readExponent afterFraction
  return (⟨negative, whole, fraction, exponent⟩, after)

/-- A number. -/
def readNumber : List Char → Except Malformed (Literal × List Char)
  | '-' :: text => readUnsigned true text
  | text => readUnsigned false text

/-- The code unit that four hexadecimal digits write. -/
def unit? (a b c d : Char) : Option Nat :=
  match hexValue? a, hexValue? b, hexValue? c, hexValue? d with
  | some w, some x, some y, some z => some (((w * 16 + x) * 16 + y) * 16 + z)
  | _, _, _, _ => none

/-- The character that a letter writes after a backslash. -/
def escaped? : Char → Option Char
  | '"' => some '"'
  | '\\' => some '\\'
  | '/' => some '/'
  | 'b' => some '\x08'
  | 'f' => some '\x0c'
  | 'n' => some '\n'
  | 'r' => some '\r'
  | 't' => some '\t'
  | _ => none

/-- The characters of a string up to its closing quote, read after the opening one; `done` holds
those read so far, the last first.  Half a pair is held by itself, whatever follows it. -/
def readChars : List Char → List Char → Except Malformed (List Char × List Char)
  | '"' :: rest, done => .ok (done.reverse, rest)
  | '\\' :: 'u' :: a :: b :: c :: d :: rest, done =>
      match unit? a b c d with
      | some unit => readChars rest ((Units.holdUnit unit).reverse ++ done)
      | none => .error ⟨a :: b :: c :: d :: rest⟩
  | '\\' :: e :: rest, done =>
      match escaped? e with
      | some c => readChars rest (c :: done)
      | none => .error ⟨e :: rest⟩
  | c :: rest, done =>
      if c.toNat < 0x20 ∨ c = '\\' then .error ⟨c :: rest⟩ else readChars rest (c :: done)
  | [], _ => .error ⟨[]⟩

/-- The text of a string, read after its opening quote.  Two halves that meet are joined. -/
def readString (text : List Char) : Except Malformed (String × List Char) :=
  match readChars text [] with
  | .ok (chars, rest) => .ok (Units.toText (Units.ofChars chars), rest)
  | .error e => .error e

/-- The rest after a given word. -/
def expectWord : List Char → List Char → Except Malformed (List Char)
  | [], text => .ok text
  | w :: word, c :: text => if w = c then expectWord word text else .error ⟨c :: text⟩
  | _ :: _, [] => .error ⟨[]⟩

mutual

/-- A value, with the blank space in front of it. -/
def readValue : Nat → List Char → Except Malformed (Json Literal × List Char)
  | 0, text => .error ⟨text⟩
  | fuel + 1, text =>
      match skipBlank text with
      | [] => .error ⟨[]⟩
      | '{' :: rest =>
          match skipBlank rest with
          | '}' :: after => .ok (.record [], after)
          | rest => do
              let (fields, after) ← readFields fuel rest
              return (.record fields, after)
      | '[' :: rest =>
          match skipBlank rest with
          | ']' :: after => .ok (.list [], after)
          | rest => do
              let (items, after) ← readItems fuel rest
              return (.list items, after)
      | '"' :: rest => do
          let (s, after) ← readString rest
          return (.text s, after)
      | 't' :: rest => do
          let after ← expectWord ['r', 'u', 'e'] rest
          return (.bool true, after)
      | 'f' :: rest => do
          let after ← expectWord ['a', 'l', 's', 'e'] rest
          return (.bool false, after)
      | 'n' :: rest => do
          let after ← expectWord ['u', 'l', 'l'] rest
          return (.null, after)
      | rest => do
          let (literal, after) ← readNumber rest
          return (.number literal, after)

/-- The items of a list up to its closing bracket. -/
def readItems : Nat → List Char → Except Malformed (List (Json Literal) × List Char)
  | 0, text => .error ⟨text⟩
  | fuel + 1, text => do
      let (item, after) ← readValue fuel text
      match skipBlank after with
      | ',' :: rest =>
          let (items, after) ← readItems fuel rest
          return (item :: items, after)
      | ']' :: rest => return ([item], rest)
      | rest => throw ⟨rest⟩

/-- The fields of a record up to its closing brace. -/
def readFields : Nat → List Char → Except Malformed (List (String × Json Literal) × List Char)
  | 0, text => .error ⟨text⟩
  | fuel + 1, text =>
      match skipBlank text with
      | '"' :: text => do
          let (key, after) ← readString text
          match skipBlank after with
          | ':' :: text =>
              let (value, after) ← readValue fuel text
              match skipBlank after with
              | ',' :: rest =>
                  let (fields, after) ← readFields fuel rest
                  return ((key, value) :: fields, after)
              | '}' :: rest => return ([(key, value)], rest)
              | rest => throw ⟨rest⟩
          | rest => throw ⟨rest⟩
      | rest => .error ⟨rest⟩

end

/-- The value that a whole text writes. -/
def parse (text : String) : Except Malformed (Json Literal) :=
  let chars := text.toList
  match readValue (2 * chars.length + 1) chars with
  | .ok (value, after) =>
      match skipBlank after with
      | [] => .ok value
      | rest => .error ⟨rest⟩
  | .error e => .error e

/-- The value that a whole text writes, its numbers read as the nearest ones. -/
def read (text : String) : Except Malformed (Json Binary64) :=
  (parse text).map (Json.map Literal.nearest)

/-- What is wrong with a text, in words. -/
def Malformed.message (e : Malformed) : String :=
  match e.rest with
  | [] => "Unexpected end of JSON input"
  | c :: _ => "Unexpected token '" ++ String.singleton c ++ "' in JSON"

end AccountRegistry.JsonText
