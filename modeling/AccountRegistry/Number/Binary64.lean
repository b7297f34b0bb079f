/-!
# Binary floating point numbers

Numbers of 53 significant bits, as data files hold them: a sign, a significand and a power of
two, or an infinity, or no number.  `ofRatio` rounds an exact quotient to the nearest such
number, a tie to the even significand; all arithmetic is exact and on natural numbers.
-/

namespace AccountRegistry

/-- A binary floating point number; `finite s m e` is `m · 2 ^ e`, negative if `s` holds. -/
inductive Binary64 where
  | finite (negative : Bool) (significand : Nat) (exponent : Int)
  | infinite (negative : Bool)
  | nan
  deriving DecidableEq, Repr, Inhabited

namespace Binary64

/-- The largest integer below which every integer has a number of its own, `2 ^ 53 - 1`. -/
def maxSafe : Int :=
  0x1fffffffffffff

/-- `2 ^ e` for a non-negative exponent, else one. -/
def powerUp (e : Int) : Nat := Nat.pow 2 e.toNat

/-- `2 ^ (-e)` for a negative exponent, else one. -/
def powerDown (e : Int) : Nat := Nat.pow 2 (-e).toNat

/-- The exponent `k` with `2 ^ k ≤ num / den < 2 ^ (k + 1)`. -/
def magnitude (num den : Nat) : Int :=
  let k : Int := (num.log2 : Int) - (den.log2 : Int)
  if den * powerUp k ≤ num * powerDown k then k else k - 1

/-- The exponent of the last significant bit of the numbers around a quotient. -/
def lastBit (num den : Nat) : Int :=
  max (-1074) (magnitude num den - 52)

/-- The quotient rounded to the nearest natural number, a tie to the even one. -/
def roundHalfEven (num den : Nat) : Nat :=
  let q := num / den
  let r := num % den
  if 2 * r < den then q
  else if 2 * r = den then q + q % 2
  else q + 1

/-- A significand and exponent as a number: beyond the largest exponent it is infinite. -/
def normalize (negative : Bool) (significand : Nat) (exponent : Int) : Binary64 :=
  if significand = 0x20000000000000 then
    if 971 < exponent + 1 then .infinite negative
    else .finite negative 0x10000000000000 (exponent + 1)
  else if 971 < exponent then .infinite negative
  else .finite negative significand exponent

/-- The number nearest to `num / den`, with a sign. -/
def ofRatio (negative : Bool) (num den : Nat) : Binary64 :=
  if num = 0 then .finite negative 0 0
  else
    let e := lastBit num den
    normalize negative (roundHalfEven (num * powerDown e) (den * powerUp e)) e

/-- The number nearest to `significand · 10 ^ scale`.  Scales that put the value beyond every
finite number or below half of the smallest are settled without computing the power. -/
def ofScientific (negative : Bool) (significand : Nat) (scale : Int) : Binary64 :=
  if significand = 0 then .finite negative 0 0
  else if 400 < scale then .infinite negative
  else if 0 ≤ scale then ofRatio negative (significand * Nat.pow 10 scale.toNat) 1
  else if (significand.log2 : Int) + 1077 ≤ 3 * -scale then .finite negative 0 0
  else ofRatio negative significand (Nat.pow 10 (-scale).toNat)

/-- The number nearest to an integer. -/
def ofInt (n : Int) : Binary64 :=
  ofRatio (n < 0) n.natAbs 1

/-- The number nearest to a natural number. -/
def ofNat (n : Nat) : Binary64 :=
  ofRatio false n 1

/-- The integer that a whole number is; `none` for fractions, infinities and no number. -/
def toInt? : Binary64 → Option Int
  | .finite negative significand exponent =>
      let scaled := significand * powerUp exponent
      if scaled % powerDown exponent = 0 then
        let n : Int := (scaled / powerDown exponent : Nat)
        some (if negative then -n else n)
      else none
  | _ => none

/-- Whether the number is whole. -/
def isWhole (x : Binary64) : Bool :=
  x.toInt?.isSome

/-- Whether the number is below an integer. -/
def below (x : Binary64) (bound : Int) : Bool :=
  match x with
  | .finite negative significand exponent =>
      let scaled : Int := (significand * powerUp exponent : Nat)
      let bound' := bound * (powerDown exponent : Nat)
      if negative then -scaled < bound' else scaled < bound'
  | .infinite negative => negative
  | .nan => false

/-- Whether the number is above an integer. -/
def above (x : Binary64) (bound : Int) : Bool :=
  match x with
  | .finite negative significand exponent =>
      let scaled : Int := (significand * powerUp exponent : Nat)
      let bound' := bound * (powerDown exponent : Nat)
      if negative then bound' < -scaled else bound' < scaled
  | .infinite negative => !negative
  | .nan => false

end Binary64

end AccountRegistry
