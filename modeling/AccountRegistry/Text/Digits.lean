/-!
# Digits

Digit characters with their values, positional reading, and the written forms of integers:
hexadecimal of minimal or of fixed width, and decimal.
-/

namespace AccountRegistry.Digits

/-- The value of an ASCII decimal digit. -/
def decimalValue? (c : Char) : Option Nat :=
  if '0' ≤ c ∧ c ≤ '9' then some (c.toNat - 48) else none

/-- The value of an ASCII hexadecimal digit of either case. -/
def hexValue? (c : Char) : Option Nat :=
  if '0' ≤ c ∧ c ≤ '9' then some (c.toNat - 48)
  else if 'a' ≤ c ∧ c ≤ 'f' then some (c.toNat - 87)
  else if 'A' ≤ c ∧ c ≤ 'F' then some (c.toNat - 55)
  else none

/-- The bytes that pairs of hexadecimal digits write, up to what is no pair. -/
def hexBytes : List Char → List UInt8
  | high :: low :: rest =>
      match hexValue? high, hexValue? low with
      | some h, some l => UInt8.ofNat (h * 16 + l) :: hexBytes rest
      | _, _ => []
  | _ => []

/-- The positional value of a list of digit values, most significant first. -/
def ofDigits (base : Nat) (digits : List Nat) : Nat :=
  digits.foldl (fun value digit => value * base + digit) 0

/-- The positional value of a non-empty run of digit characters. -/
def positional? (base : Nat) (value? : Char → Option Nat) : List Char → Option Nat
  | [] => none
  | c :: rest => ((c :: rest).mapM value?).map (ofDigits base)

/-- A run of decimal digits: its value, its length and what follows. -/
def digitRun : List Char → Nat → Nat → Nat × Nat × List Char
  | c :: rest, value, count =>
      match decimalValue? c with
      | some digit => digitRun rest (value * 10 + digit) (count + 1)
      | none => (value, count, c :: rest)
  | [], value, count => (value, count, [])

/-- The lower-case hexadecimal digit of a value below sixteen. -/
def hexDigit (n : Nat) : Char :=
  if n < 10 then Char.ofNat (48 + n) else Char.ofNat (87 + n)

/-- The last `width` hexadecimal digits of a number, padded with zeros on the left. -/
def hexFixed : Nat → Nat → List Char
  | 0, _ => []
  | width + 1, n => hexFixed width (n / 16) ++ [hexDigit (n % 16)]

theorem hexFixed_length (width n : Nat) : (hexFixed width n).length = width := by
  induction width generalizing n with
  | zero => rfl
  | succ width ih => simp [hexFixed, ih]

/-- The hexadecimal digits of a number without leading zeros; zero has one digit. -/
def hexMinimal (n : Nat) : List Char :=
  if n < 16 then [hexDigit n] else hexMinimal (n / 16) ++ [hexDigit (n % 16)]

/-- The decimal text of an integer, with a minus sign when it is negative. -/
def decimal (n : Int) : String :=
  if n < 0 then "-" ++ Nat.repr n.natAbs else Nat.repr n.natAbs

/-- The text `0x` and the minimal hexadecimal digits, with the minus sign of a negative integer
between the two. -/
def hexLiteral (n : Int) : String :=
  "0x" ++ (if n < 0 then "-" else "") ++ String.ofList (hexMinimal n.natAbs)

/-- The text `0x` and the hexadecimal digits of a number in a fixed width. -/
def hexPadded (width n : Nat) : String :=
  "0x" ++ String.ofList (hexFixed width n)

end AccountRegistry.Digits
