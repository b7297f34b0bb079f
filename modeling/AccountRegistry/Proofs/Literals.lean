import AccountRegistry.Json.Basic
import AccountRegistry.Proofs.Rounding

/-!
# Numbers as they are written and as they are read

A literal writes a rational number, of which the nearest binary floating point number is kept.  So
a literal that is read as an integer with a number of its own may write something else, but nothing
that is farther than that number's rounding (`Literal.Reads`), and no other integer
(`Literal.reads_of_nearest`).  An integer in the safe range is read as itself
(`Literal.nearest_of_integer`).
-/

namespace AccountRegistry

/-- What may be said of a number that is written and the integer from zero to `2 ^ 53 - 1` that it
is read as. -/
structure Literal.Reads (q : ℚ) (n : ℤ) : Prop where
  tiny : n = 0 → |q| ≤ 2 ^ (-1075 : ℤ)
  near : 0 < n → |q - n| ≤ n / 2 ^ 53
  exact : ∀ k : ℤ, q = k → n = k

namespace Literal

open Binary64

variable {literal : Literal} {n : ℤ}

/-- The rational number that a literal writes. -/
def value (literal : Literal) : ℚ :=
  sign literal.negative * (literal.significand * 10 ^ literal.scale)

/-- Being written without a fraction and without an exponent. -/
def IsInteger (literal : Literal) : Prop :=
  literal.fraction = none ∧ literal.exponent = none

/-- The integer that the digits before a fraction and an exponent write, with their sign. -/
def integer (literal : Literal) : ℤ :=
  if literal.negative then -literal.whole else literal.whole

theorem value_of_isInteger (hinteger : literal.IsInteger) : literal.value = literal.integer := by
  obtain ⟨hfraction, hexponent⟩ := hinteger
  have hscale : literal.scale = 0 := by simp [scale, hfraction, hexponent]
  have hsignificand : literal.significand = literal.whole := by simp [significand, hfraction]
  rw [value, integer, cast_signed, hscale, hsignificand, zpow_zero, mul_one, Int.cast_natCast]

theorem abs_value (literal : Literal) :
    |literal.value| = literal.significand * 10 ^ literal.scale := by
  rw [value, abs_sign_mul, abs_of_nonneg (by positivity)]

/-- The number nearest to a literal is infinite, or what the literal may be rounded to. -/
theorem nearest_cases (literal : Literal) :
    (literal.nearest = .infinite literal.negative ∧ 2 ^ 53 ≤ |literal.value|) ∨
      ∃ v, literal.nearest.value = some (sign literal.negative * v) ∧ Rounds |literal.value| v := by
  rw [abs_value]
  exact ofScientific_cases literal.negative literal.significand literal.scale

/-- A literal that is read as an integer in the safe range is no farther from it than rounding
takes it. -/
theorem reads_of_nearest (hread : literal.nearest.value = some (n : ℚ)) (hlower : 0 ≤ n)
    (hupper : n ≤ 2 ^ 53 - 1) : Reads literal.value n := by
  rcases nearest_cases literal with ⟨hinfinite, -⟩ | ⟨v, hvalue, hrounds⟩
  · rw [hinfinite] at hread
    cases hread
  · have hsigned : sign literal.negative * v = n := Option.some.inj (hvalue.symm.trans hread)
    have hv : v = n := by
      rw [← abs_of_nonneg hrounds.nonneg, ← abs_sign_mul literal.negative, hsigned,
        abs_of_nonneg (by exact_mod_cast hlower)]
    -- the sign plays no part in the distance
    have hdistance : |literal.value - n| = |(|literal.value|) - v| := by
      rw [abs_value, ← hsigned, value, ← mul_sub, abs_sign_mul]
    have hsmall : v < 2 ^ 53 := by
      rw [hv]
      exact_mod_cast (show n < 2 ^ 53 by omega)
    refine ⟨fun hzero => ?_, fun hpositive => ?_, fun k hk => ?_⟩
    · have hnone : v = 0 := by rw [hv, hzero, Int.cast_zero]
      rcases hrounds.near with hnear | ⟨-, hnear⟩
      · rw [hnone, sub_zero, abs_abs, zero_div] at hnear
        exact hnear.trans (by positivity)
      · rwa [hnone, sub_zero, abs_abs] at hnear
    · rw [hdistance]
      rcases hrounds.near with hnear | ⟨hbelow, -⟩
      · rwa [hv] at hnear ⊢
      · have hone : (1 : ℚ) ≤ n := by exact_mod_cast hpositive
        linarith
    · have habs : |literal.value| = (k.natAbs : ℚ) := by
        rw [hk, Nat.cast_natAbs, Int.cast_abs]
      have hown : k.natAbs < 2 ^ 53 := by
        by_contra hlarge
        have hover := hrounds.large (by rw [habs]; exact_mod_cast not_lt.mp hlarge)
        exact absurd hsmall (not_lt.mpr hover)
      have hexact := hrounds.exact k.natAbs habs hown
      have hvalue : literal.value = n := by
        rw [value, ← abs_value, habs, ← hexact, hsigned]
      exact_mod_cast hvalue.symm.trans hk

/-- A literal of an integer that has a number of its own is read as it. -/
theorem nearest_of_integer (hvalue : literal.value = n) (hlower : 0 ≤ n)
    (hupper : n ≤ 2 ^ 53 - 1) : literal.nearest.value = some (n : ℚ) := by
  have habs : |literal.value| = (n.toNat : ℚ) := by
    rw [hvalue, abs_of_nonneg (by exact_mod_cast hlower)]
    exact_mod_cast (Int.toNat_of_nonneg hlower).symm
  have hsmall : n.toNat < 2 ^ 53 := by omega
  rcases nearest_cases literal with ⟨-, hlarge⟩ | ⟨v, hread, hrounds⟩
  · rw [habs] at hlarge
    exact absurd hlarge (not_le.mpr (by exact_mod_cast hsmall))
  · rw [hread, hrounds.exact _ habs hsmall, ← habs, abs_value, ← hvalue, value]

end Literal

end AccountRegistry
