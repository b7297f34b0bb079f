import AccountRegistry.Text.Digits

/-!
# Numerals

A numeral is the one integer literal that users may write: `0x` with one or more hexadecimal
digits of either case, or one or more decimal digits.  Leading zeros are allowed; signs, blanks,
`0X` and separators are not.  `Denotes` states the grammar without the reader `read?`.
-/

namespace AccountRegistry.Numeral

open Digits

/-- The integer that a numeral writes; `none` for any other text. -/
def read? : List Char → Option Nat
  | '0' :: 'x' :: digits => positional? 16 hexValue? digits
  | digits => positional? 10 decimalValue? digits

/-- The integer that a text writes as a numeral. -/
def ofText? (text : String) : Option Nat :=
  read? text.toList

/-- A non-empty run of digits and its positional value, one digit at a time from the left. -/
inductive Positional (base : Nat) (value? : Char → Option Nat) : List Char → Nat → Prop
  | single {c : Char} {v : Nat} (digit : value? c = some v) : Positional base value? [c] v
  | snoc {digits : List Char} {n : Nat} {c : Char} {v : Nat}
      (front : Positional base value? digits n) (digit : value? c = some v) :
      Positional base value? (digits ++ [c]) (n * base + v)

/-- The grammar of numerals: which text writes which natural number. -/
inductive Denotes : List Char → Nat → Prop
  | hex {digits : List Char} {n : Nat} (run : Positional 16 hexValue? digits n) :
      Denotes ('0' :: 'x' :: digits) n
  | decimal {digits : List Char} {n : Nat} (run : Positional 10 decimalValue? digits n) :
      Denotes digits n

/-- Whether a text is `0x` followed by any number of hexadecimal digits, none included. -/
def isHexString (text : String) : Bool :=
  match text.toList with
  | '0' :: 'x' :: digits => digits.all fun c => (hexValue? c).isSome
  | _ => false

/-- The integer that a text writes as a numeral with an optional minus sign in front. -/
def signed? (text : String) : Option Int :=
  match text.toList with
  | '-' :: rest => (read? rest).map fun n => -(n : Int)
  | rest => (read? rest).map fun n => (n : Int)

end AccountRegistry.Numeral
