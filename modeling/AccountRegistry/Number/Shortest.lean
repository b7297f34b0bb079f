import AccountRegistry.Number.Binary64

/-!
# Shortest decimal text

The decimal text of a binary floating point number: the fewest digits that read back as the same
number, and of these the ones nearest to its value.  Numbers from one millionth up to `10 ^ 21`
are written positionally, all others with an exponent.
-/

namespace AccountRegistry.Shortest

/-- A positive value `value / scale` with the bounds of the interval that reads back as it. -/
structure Interval where
  value : Nat
  low : Nat
  high : Nat
  scale : Nat
  closed : Bool

/-- The interval of the positive number `significand · 2 ^ exponent`.  Below a power of two the
gap is half as wide as above it; the ends belong to the interval when the significand is even. -/
def interval (significand : Nat) (exponent : Int) : Interval :=
  let unit := Nat.pow 2 (exponent - 2).toNat
  let below := if significand = 0x10000000000000 ∧ -1074 < exponent then 1 else 2
  { value := 4 * significand * unit
    low := (4 * significand - below) * unit
    high := (4 * significand + 2) * unit
    scale := Nat.pow 2 (2 - exponent).toNat
    closed := significand % 2 = 0 }

/-- Whether the decimal `digits · 10 ^ power` lies in the interval. -/
def Interval.holds (i : Interval) (digits : Nat) (power : Int) : Bool :=
  let x := digits * Nat.pow 10 power.toNat * i.scale
  let one := Nat.pow 10 (-power).toNat
  if i.closed then i.low * one ≤ x && x ≤ i.high * one
  else i.low * one < x && x < i.high * one

/-- How many of the places `10 ^ -1`, `10 ^ -2`, … a value below one leaves empty. -/
def emptyPlaces (num den : Nat) : Nat → Nat
  | 0 => 0
  | fuel + 1 => if den ≤ num * 10 then 0 else emptyPlaces (num * 10) den fuel + 1

/-- The exponent `k` with `10 ^ (k - 1) ≤ num / den < 10 ^ k`. -/
def pointPlace (num den : Nat) : Int :=
  if den ≤ num then ((Nat.toDigits 10 (num / den)).length : Nat)
  else -((emptyPlaces num den 400 : Nat) : Int)

/-- The decimal with a given last place that lies in the interval, the nearer of two. -/
def candidate? (i : Interval) (power : Int) : Option Nat :=
  let num := i.value * Nat.pow 10 (-power).toNat
  let den := i.scale * Nat.pow 10 power.toNat
  let lower := num / den
  let rest := num % den
  match i.holds lower power, i.holds (lower + 1) power with
  | true, true =>
      if 2 * rest < den then some lower
      else if 2 * rest = den then some (lower + lower % 2)
      else some (lower + 1)
  | true, false => some lower
  | false, true => some (lower + 1)
  | false, false => none

/-- The first decimal found as the number of digits grows. -/
def search (i : Interval) (point : Int) : Nat → Nat → Nat × Int
  | 0, count => (i.value / i.scale, point - count)
  | fuel + 1, count =>
      match candidate? i (point - count) with
      | some digits => (digits, point - count)
      | none => search i point fuel (count + 1)

/-- The shortest digits of a positive number, without zeros at the end, and the place of the
decimal point counted from their left end. -/
def digits (significand : Nat) (exponent : Int) : List Char × Int :=
  let i := interval significand exponent
  let found := search i (pointPlace i.value i.scale) 17 1
  let text := Nat.toDigits 10 found.1
  let kept := (text.reverse.dropWhile (· == '0')).reverse
  (kept, found.2 + (text.length : Nat))

/-- Digits and the place of their decimal point as text. -/
def layout (digits : List Char) (point : Int) : List Char :=
  let count : Int := (digits.length : Nat)
  if count ≤ point ∧ point ≤ 21 then
    digits ++ List.replicate (point - count).toNat '0'
  else if 0 < point ∧ point ≤ 21 then
    digits.take point.toNat ++ '.' :: digits.drop point.toNat
  else if -6 < point ∧ point ≤ 0 then
    '0' :: '.' :: List.replicate (-point).toNat '0' ++ digits
  else
    let e := point - 1
    let power := (if e < 0 then '-' else '+') :: Nat.toDigits 10 e.natAbs
    match digits with
    | [] => []
    | [d] => d :: 'e' :: power
    | d :: rest => d :: '.' :: rest ++ 'e' :: power

/-- The text of a number; zero has no sign. -/
def text : Binary64 → String
  | .nan => "NaN"
  | .infinite negative => if negative then "-Infinity" else "Infinity"
  | .finite negative significand exponent =>
      if significand = 0 then "0"
      else
        let d := digits significand exponent
        String.ofList ((if negative then ['-'] else []) ++ layout d.1 d.2)

end AccountRegistry.Shortest
