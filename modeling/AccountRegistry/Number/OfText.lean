import AccountRegistry.Number.Binary64
import AccountRegistry.Text.Blank
import AccountRegistry.Text.Digits

/-!
# Numbers from text

The number that a text stands for: a decimal with an optional sign, fraction and exponent, or an
unsigned integer in base sixteen, eight or two.  Blank space around it does not count, a blank text
is zero, and any other text is no number.
-/

namespace AccountRegistry.Binary64

open Digits

/-- The value of a digit below a base of at most ten. -/
def lowDigit? (base : Nat) (c : Char) : Option Nat :=
  (decimalValue? c).filter fun digit => digit < base

/-- The exponent at the end of a decimal; zero if nothing is left. -/
def exponent? : List Char → Option Int
  | [] => some 0
  | e :: rest =>
      if e = 'e' ∨ e = 'E' then
        match rest with
        | '-' :: digits => (positional? 10 decimalValue? digits).map fun n => -(n : Int)
        | '+' :: digits => (positional? 10 decimalValue? digits).map fun n => (n : Int)
        | digits => (positional? 10 decimalValue? digits).map fun n => (n : Int)
      else none

/-- The digits after a decimal point: their value, how many they are and what follows. -/
def fractionRun : List Char → Nat × Nat × List Char
  | '.' :: rest => digitRun rest 0 0
  | rest => (0, 0, rest)

/-- A decimal without its sign. -/
def ofDecimal (negative : Bool) (text : List Char) : Binary64 :=
  if text = "Infinity".toList then .infinite negative
  else
    let whole := digitRun text 0 0
    let fraction := fractionRun whole.2.2
    if whole.2.1 + fraction.2.1 = 0 then .nan
    else
      match exponent? fraction.2.2 with
      | some exponent =>
          ofScientific negative (whole.1 * Nat.pow 10 fraction.2.1 + fraction.1)
            (exponent - (fraction.2.1 : Nat))
      | none => .nan

/-- An unsigned integer in a base. -/
def ofBase (base : Nat) (value? : Char → Option Nat) (digits : List Char) : Binary64 :=
  match positional? base value? digits with
  | some n => ofNat n
  | none => .nan

/-- The number that trimmed text stands for. -/
def ofTrimmed : List Char → Binary64
  | [] => .finite false 0 0
  | '0' :: 'x' :: digits => ofBase 16 hexValue? digits
  | '0' :: 'X' :: digits => ofBase 16 hexValue? digits
  | '0' :: 'o' :: digits => ofBase 8 (lowDigit? 8) digits
  | '0' :: 'O' :: digits => ofBase 8 (lowDigit? 8) digits
  | '0' :: 'b' :: digits => ofBase 2 (lowDigit? 2) digits
  | '0' :: 'B' :: digits => ofBase 2 (lowDigit? 2) digits
  | '-' :: text => ofDecimal true text
  | '+' :: text => ofDecimal false text
  | text => ofDecimal false text

/-- The number that a text stands for. -/
def ofText (text : String) : Binary64 :=
  ofTrimmed (Blank.trim text.toList)

end AccountRegistry.Binary64
