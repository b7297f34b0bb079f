import AccountRegistry.Number.Binary64
import Mathlib.Algebra.Order.Archimedean.Basic
import Mathlib.Algebra.Order.Field.Power
import Mathlib.Algebra.Order.Ring.Rat
import Mathlib.Tactic.FieldSimp
import Mathlib.Tactic.Linarith
import Mathlib.Tactic.NormNum
import Mathlib.Tactic.Positivity
import Mathlib.Tactic.Ring

/-!
# Rounding to binary floating point numbers

The rational number that a binary floating point number is, and how far a quotient is from the
number that it is rounded to.

* `toInt?_eq_some_iff`, `below_iff`, `above_iff`: the tests on numbers are tests on their values.
* `magnitude_spec`: the leading bit of a quotient, which is found from the two logarithms.
* `rounds_rounded`: what may be said of a quotient and the number that it is rounded to (`Rounds`).
* `ofScientific_cases`: the number of a decimal is infinite, or the decimal is rounded to it.
-/

namespace AccountRegistry.Binary64

/-! ## Numbers as rational numbers -/

/-- The factor of a sign. -/
def sign (negative : Bool) : ℚ :=
  if negative then -1 else 1

theorem sign_mul_eq_iff {negative : Bool} {q r : ℚ} :
    sign negative * q = r ↔ q = sign negative * r := by
  cases negative with
  | false => simp [sign]
  | true => simp [sign, neg_eq_iff_eq_neg]

theorem cast_signed (negative : Bool) (n : ℤ) :
    ((if negative then -n else n : ℤ) : ℚ) = sign negative * n := by
  cases negative <;> simp [sign]

theorem abs_sign_mul (negative : Bool) (q : ℚ) : |sign negative * q| = |q| := by
  cases negative <;> simp [sign]

/-- The rational number that a finite number is. -/
def value : Binary64 → Option ℚ
  | .finite negative significand exponent => some (sign negative * (significand * 2 ^ exponent))
  | .infinite _ => none
  | .nan => none

theorem powerUp_pos (e : ℤ) : 0 < powerUp e :=
  Nat.pow_pos (by decide)

theorem powerDown_pos (e : ℤ) : 0 < powerDown e :=
  Nat.pow_pos (by decide)

/-- The two powers of an exponent are the two sides of a quotient. -/
theorem powerUp_div_powerDown (e : ℤ) : (powerUp e : ℚ) / powerDown e = 2 ^ e := by
  simp only [powerUp, powerDown, Nat.pow_eq, Nat.cast_pow, Nat.cast_ofNat]
  rcases Int.le_total 0 e with hnonneg | hnonpos
  · lift e to ℕ using hnonneg
    simp
  · obtain ⟨k, rfl⟩ : ∃ k : ℕ, e = -(k : ℤ) := ⟨(-e).toNat, by omega⟩
    simp

theorem value_finite (negative : Bool) (significand : ℕ) (exponent : ℤ) :
    value (.finite negative significand exponent) =
      some (sign negative * ((significand * powerUp exponent : ℕ) / (powerDown exponent : ℚ))) := by
  rw [value, Nat.cast_mul, mul_div_assoc, powerUp_div_powerDown]

/-- The integer of a number is the one with its value. -/
theorem toInt?_eq_some_iff {x : Binary64} {n : ℤ} :
    x.toInt? = some n ↔ x.value = some (n : ℚ) := by
  cases x with
  | infinite negative => simp [toInt?, value]
  | nan => simp [toInt?, value]
  | finite negative significand exponent =>
      have hdown : (powerDown exponent : ℚ) ≠ 0 :=
        Nat.cast_ne_zero.mpr (powerDown_pos exponent).ne'
      rw [value_finite, Option.some.injEq, toInt?]
      generalize significand * powerUp exponent = scaled
      by_cases hwhole : scaled % powerDown exponent = 0
      · obtain ⟨k, rfl⟩ := Nat.dvd_of_mod_eq_zero hwhole
        simp only [if_pos hwhole, Option.some.injEq]
        rw [Nat.mul_div_cancel_left k (powerDown_pos exponent), Nat.cast_mul,
          mul_div_cancel_left₀ _ hdown, ← Int.cast_natCast (R := ℚ) k, ← cast_signed, Int.cast_inj]
      · simp only [if_neg hwhole, reduceCtorEq, false_iff]
        intro hvalue
        rw [sign_mul_eq_iff, ← cast_signed, div_eq_iff hdown] at hvalue
        have hdivides : (powerDown exponent : ℤ) ∣ (scaled : ℤ) :=
          Dvd.intro_left _ (by exact_mod_cast hvalue.symm)
        exact hwhole (Nat.mod_eq_zero_of_dvd (Int.natCast_dvd_natCast.mp hdivides))

/-- Being below an integer is being so in value. -/
theorem below_iff {x : Binary64} {v : ℚ} (hvalue : x.value = some v) (bound : ℤ) :
    x.below bound = true ↔ v < bound := by
  cases x with
  | infinite negative => cases hvalue
  | nan => cases hvalue
  | finite negative significand exponent =>
      have hdown : (0 : ℚ) < powerDown exponent := Nat.cast_pos.mpr (powerDown_pos exponent)
      rw [value_finite, Option.some.injEq] at hvalue
      rw [← hvalue, below]
      generalize significand * powerUp exponent = scaled
      cases negative with
      | false =>
          simp only [Bool.false_eq_true, if_false, decide_eq_true_eq, sign, one_mul]
          rw [div_lt_iff₀ hdown]
          exact_mod_cast Iff.rfl
      | true =>
          simp only [if_true, decide_eq_true_eq, sign, neg_one_mul]
          rw [← neg_div, div_lt_iff₀ hdown]
          exact_mod_cast Iff.rfl

/-- Being above an integer is being so in value. -/
theorem above_iff {x : Binary64} {v : ℚ} (hvalue : x.value = some v) (bound : ℤ) :
    x.above bound = true ↔ (bound : ℚ) < v := by
  cases x with
  | infinite negative => cases hvalue
  | nan => cases hvalue
  | finite negative significand exponent =>
      have hdown : (0 : ℚ) < powerDown exponent := Nat.cast_pos.mpr (powerDown_pos exponent)
      rw [value_finite, Option.some.injEq] at hvalue
      rw [← hvalue, above]
      generalize significand * powerUp exponent = scaled
      cases negative with
      | false =>
          simp only [Bool.false_eq_true, if_false, decide_eq_true_eq, sign, one_mul]
          rw [lt_div_iff₀ hdown]
          exact_mod_cast Iff.rfl
      | true =>
          simp only [if_true, decide_eq_true_eq, sign, neg_one_mul]
          rw [← neg_div, lt_div_iff₀ hdown]
          exact_mod_cast Iff.rfl

/-! ## Rounding a quotient -/

/-- The nearest integer is at most one half away. -/
theorem abs_sub_roundHalfEven_le (num : ℕ) {den : ℕ} (hden : 0 < den) :
    |(num : ℚ) / den - roundHalfEven num den| ≤ 1 / 2 := by
  have hpositive : (0 : ℚ) < den := Nat.cast_pos.mpr hden
  have hrest : num % den < den := Nat.mod_lt num hden
  have hnum : (num : ℚ) = den * (num / den : ℕ) + (num % den : ℕ) := by
    exact_mod_cast (Nat.div_add_mod num den).symm
  have hbounds : 2 * (den * roundHalfEven num den) ≤ 2 * num + den ∧
      2 * num ≤ 2 * (den * roundHalfEven num den) + den := by
    have hdivision := Nat.div_add_mod num den
    unfold roundHalfEven
    dsimp only
    split
    · omega
    · split
      · rcases Nat.mod_two_eq_zero_or_one (num / den) with heven | hodd
        · rw [heven, Nat.add_zero]
          omega
        · rw [hodd, Nat.mul_add]
          omega
      · rw [Nat.mul_add]
        omega
  have hlower : 2 * ((den : ℚ) * roundHalfEven num den) ≤ 2 * num + den := by
    exact_mod_cast hbounds.1
  have hupper : 2 * (num : ℚ) ≤ 2 * (den * roundHalfEven num den) + den := by
    exact_mod_cast hbounds.2
  rw [abs_le]
  constructor
  · rw [le_sub_iff_add_le, le_div_iff₀ hpositive]
    linarith
  · rw [sub_le_iff_le_add, div_le_iff₀ hpositive]
    linarith

/-- An integer is rounded to itself. -/
theorem roundHalfEven_mul {den : ℕ} (hden : 0 < den) (n : ℕ) : roundHalfEven (n * den) den = n := by
  unfold roundHalfEven
  dsimp only
  rw [Nat.mul_mod_left, Nat.mul_div_cancel n hden, if_pos (by omega)]

/-- A power of two is below a quotient exactly if it is so as a quotient of its two powers. -/
theorem zpow_le_div_iff {num den : ℕ} (hden : den ≠ 0) (k : ℤ) :
    (2 : ℚ) ^ k ≤ (num : ℚ) / den ↔ den * powerUp k ≤ num * powerDown k := by
  have hpositive : (0 : ℚ) < den := by positivity
  have hdown : (0 : ℚ) < powerDown k := Nat.cast_pos.mpr (powerDown_pos k)
  rw [← powerUp_div_powerDown, div_le_div_iff₀ hdown hpositive, mul_comm (powerUp k : ℚ)]
  exact_mod_cast Iff.rfl

/-- The magnitude of a quotient is its logarithm to base two, rounded down. -/
theorem magnitude_spec {num den : ℕ} (hnum : num ≠ 0) (hden : den ≠ 0) :
    (2 : ℚ) ^ magnitude num den ≤ (num : ℚ) / den ∧
      (num : ℚ) / den < 2 ^ (magnitude num den + 1) := by
  have htwo : (2 : ℚ) ≠ 0 := by norm_num
  have hpositive : (0 : ℚ) < den := by positivity
  have hnumLower : (2 : ℚ) ^ (num.log2 : ℤ) ≤ num := by
    exact_mod_cast Nat.log2_self_le hnum
  have hnumUpper : (num : ℚ) < 2 ^ ((num.log2 : ℤ) + 1) := by
    exact_mod_cast Nat.lt_log2_self (n := num)
  have hdenLower : (2 : ℚ) ^ (den.log2 : ℤ) ≤ den := by
    exact_mod_cast Nat.log2_self_le hden
  have hdenUpper : (den : ℚ) < 2 ^ ((den.log2 : ℤ) + 1) := by
    exact_mod_cast Nat.lt_log2_self (n := den)
  set k : ℤ := (num.log2 : ℤ) - (den.log2 : ℤ) with hk
  have hupper : (num : ℚ) / den < 2 ^ (k + 1) := by
    rw [div_lt_iff₀ hpositive]
    calc (num : ℚ) < 2 ^ ((num.log2 : ℤ) + 1) := hnumUpper
      _ = 2 ^ (k + 1) * 2 ^ (den.log2 : ℤ) := by rw [← zpow_add₀ htwo]; congr 1; omega
      _ ≤ 2 ^ (k + 1) * den := by gcongr
  have hlower : (2 : ℚ) ^ (k - 1) ≤ (num : ℚ) / den := by
    rw [le_div_iff₀ hpositive]
    calc (2 : ℚ) ^ (k - 1) * den ≤ 2 ^ (k - 1) * 2 ^ ((den.log2 : ℤ) + 1) := by gcongr
      _ = 2 ^ (num.log2 : ℤ) := by rw [← zpow_add₀ htwo]; congr 1; omega
      _ ≤ num := hnumLower
  unfold magnitude
  dsimp only
  rw [← hk]
  split
  · rename_i hle
    exact ⟨(zpow_le_div_iff hden k).mpr hle, hupper⟩
  · rename_i hnot
    rw [← zpow_le_div_iff hden, not_le] at hnot
    exact ⟨hlower, by rwa [sub_add_cancel]⟩

/-- What a quotient is rounded to. -/
def rounded (num den : ℕ) : ℚ :=
  roundHalfEven (num * powerDown (lastBit num den)) (den * powerUp (lastBit num den)) *
    2 ^ lastBit num den

/-- Rounding a quotient to a number has the value of the rounded quotient, or overflows. -/
theorem value_ofRatio (negative : Bool) (num : ℕ) {den : ℕ} (hden : 0 < den) :
    (ofRatio negative num den = .infinite negative ∧ num ≠ 0 ∧ 970 ≤ lastBit num den) ∨
      (ofRatio negative num den).value = some (sign negative * rounded num den) := by
  unfold ofRatio
  split
  · rename_i hzero
    right
    have hnone := roundHalfEven_mul (Nat.mul_pos hden (powerUp_pos (lastBit 0 den))) 0
    rw [Nat.zero_mul] at hnone
    rw [hzero, rounded, Nat.zero_mul, hnone]
    simp [value]
  · rename_i hnum
    dsimp only
    rw [rounded]
    generalize roundHalfEven (num * powerDown (lastBit num den))
      (den * powerUp (lastBit num den)) = significand
    unfold normalize
    split
    · rename_i hcarry
      split
      · exact .inl ⟨rfl, hnum, by omega⟩
      · right
        have hcarried : ((0x10000000000000 : ℕ) : ℚ) * 2 ^ (lastBit num den + 1) =
            (0x20000000000000 : ℕ) * 2 ^ lastBit num den := by
          rw [zpow_add_one₀ (by norm_num)]
          ring
        rw [value, hcarry, hcarried]
    · split
      · exact .inl ⟨rfl, hnum, by omega⟩
      · exact .inr rfl

/-! ## How far a rounded quotient is -/

section Quotient

variable {num den : ℕ}

/-- The quotient whose nearest integer is taken, in units of its last bit. -/
theorem scaled_div (num : ℕ) (hden : 0 < den) (e : ℤ) :
    ((num * powerDown e : ℕ) : ℚ) / (den * powerUp e : ℕ) * 2 ^ e = (num : ℚ) / den := by
  have hup : (powerUp e : ℚ) ≠ 0 := Nat.cast_ne_zero.mpr (powerUp_pos e).ne'
  have hdown : (powerDown e : ℚ) ≠ 0 := Nat.cast_ne_zero.mpr (powerDown_pos e).ne'
  have hdenominator : (den : ℚ) ≠ 0 := Nat.cast_ne_zero.mpr hden.ne'
  rw [← powerUp_div_powerDown, Nat.cast_mul, Nat.cast_mul]
  field_simp

/-- A quotient is rounded by at most half of its last bit. -/
theorem abs_sub_rounded_le (num : ℕ) (hden : 0 < den) :
    |(num : ℚ) / den - rounded num den| ≤ 2 ^ lastBit num den / 2 := by
  have hunit : (0 : ℚ) < 2 ^ lastBit num den := by positivity
  have hscaled := Nat.mul_pos hden (powerUp_pos (lastBit num den))
  rw [← scaled_div num hden (lastBit num den), rounded, ← sub_mul, abs_mul, abs_of_pos hunit]
  calc _ ≤ 1 / 2 * (2 : ℚ) ^ lastBit num den :=
        mul_le_mul_of_nonneg_right (abs_sub_roundHalfEven_le _ hscaled) hunit.le
    _ = 2 ^ lastBit num den / 2 := by ring

/-- A quotient above the subnormal numbers keeps all significant bits, so it is not rounded below
its leading bit. -/
theorem zpow_magnitude_le_rounded (hnum : num ≠ 0) (hden : 0 < den)
    (hnormal : -1074 ≤ magnitude num den - 52) : 2 ^ magnitude num den ≤ rounded num den := by
  have hlast : lastBit num den = magnitude num den - 52 := max_eq_right hnormal
  have hunit : (0 : ℚ) < 2 ^ lastBit num den := by positivity
  have hleading : (2 : ℚ) ^ magnitude num den = 2 ^ 52 * 2 ^ lastBit num den := by
    rw [hlast, zpow_sub₀ (by norm_num), zpow_ofNat, mul_div_cancel₀ _ (by norm_num)]
  set scaled : ℚ := ((num * powerDown (lastBit num den) : ℕ) : ℚ) /
    (den * powerUp (lastBit num den) : ℕ) with hscaled
  have hlower : (2 : ℚ) ^ 52 ≤ scaled := by
    have hquotient := (magnitude_spec hnum hden.ne').1
    rw [hleading, ← scaled_div num hden (lastBit num den)] at hquotient
    exact le_of_mul_le_mul_right hquotient hunit
  -- the nearest integer is above the leading bit by more than minus one, so it is not below it
  have hnear := abs_sub_roundHalfEven_le (num * powerDown (lastBit num den))
    (Nat.mul_pos hden (powerUp_pos (lastBit num den)))
  rw [rounded, hleading]
  generalize roundHalfEven (num * powerDown (lastBit num den))
    (den * powerUp (lastBit num den)) = significand at hnear ⊢
  have hinteger : (2 : ℚ) ^ 52 < significand + 1 := by
    have hbelow := (abs_le.mp hnear).2
    rw [← hscaled] at hbelow
    linarith
  have hsignificand : 2 ^ 52 < significand + 1 := by exact_mod_cast hinteger
  have hkept : (2 : ℚ) ^ 52 ≤ significand := by exact_mod_cast Nat.lt_succ_iff.mp hsignificand
  exact mul_le_mul_of_nonneg_right hkept hunit.le

/-- A whole quotient whose last bit is no more than one is not rounded. -/
theorem rounded_of_whole {n : ℕ} (hden : 0 < den) (hwhole : (num : ℚ) / den = n)
    (hlast : lastBit num den ≤ 0) : rounded num den = n := by
  have hnum : num = n * den := by
    rw [div_eq_iff (by positivity)] at hwhole
    exact_mod_cast hwhole
  have hup : powerUp (lastBit num den) = 1 := by
    rw [powerUp, Int.toNat_of_nonpos hlast, Nat.pow_eq, Nat.pow_zero]
  have hdown : (powerDown (lastBit num den) : ℚ) ≠ 0 :=
    Nat.cast_ne_zero.mpr (powerDown_pos _).ne'
  have hscaled : num * powerDown (lastBit num den) = n * powerDown (lastBit num den) * den := by
    rw [Nat.mul_right_comm, ← hnum]
  rw [rounded, ← powerUp_div_powerDown, hup, hscaled, Nat.mul_one, roundHalfEven_mul hden,
    Nat.cast_mul, Nat.cast_one, one_div, mul_assoc, mul_inv_cancel₀ hdown, mul_one]

/-- What may be said of a quotient and the finite number that it is rounded to: they differ by no
more than `2 ^ -53` of the number, apart from subnormal numbers; an integer that has a number of
its own is that number; and nothing above such integers comes to be one of them. -/
structure Rounds (q v : ℚ) : Prop where
  nonneg : 0 ≤ v
  near : |q - v| ≤ v / 2 ^ 53 ∨ v < 1 ∧ |q - v| ≤ 2 ^ (-1075 : ℤ)
  exact : ∀ n : ℕ, q = n → n < 2 ^ 53 → v = n
  large : 2 ^ 53 ≤ q → 2 ^ 53 ≤ v

/-- The exponents of the last bit of integers with a number of their own. -/
theorem lastBit_le_iff (hnum : num ≠ 0) (hden : 0 < den) :
    lastBit num den ≤ 0 ↔ (num : ℚ) / den < 2 ^ 53 := by
  obtain ⟨hlower, hupper⟩ := magnitude_spec hnum hden.ne'
  have htwo : (1 : ℚ) < 2 := by norm_num
  rw [lastBit]
  constructor
  · intro hlast
    have hmagnitude : magnitude num den + 1 ≤ 53 := by omega
    calc (num : ℚ) / den < 2 ^ (magnitude num den + 1) := hupper
      _ ≤ 2 ^ (53 : ℤ) := zpow_le_zpow_right₀ htwo.le hmagnitude
      _ = 2 ^ 53 := by norm_num
  · intro hquotient
    have hpower : (2 : ℚ) ^ magnitude num den < 2 ^ (53 : ℤ) :=
      hlower.trans_lt (by exact_mod_cast hquotient)
    have hmagnitude := (zpow_lt_zpow_iff_right₀ htwo).mp hpower
    omega

theorem rounds_rounded (hnum : num ≠ 0) (hden : 0 < den) :
    Rounds ((num : ℚ) / den) (rounded num den) := by
  have herror := abs_sub_rounded_le num hden
  obtain ⟨hlower, hupper⟩ := magnitude_spec hnum hden.ne'
  refine ⟨by unfold rounded; positivity, ?_, fun n hwhole hsmall => ?_, fun hlarge => ?_⟩
  · rcases le_or_gt (-1074) (magnitude num den - 52) with hnormal | hsubnormal
    · left
      have hlast : lastBit num den = magnitude num den - 52 := max_eq_right hnormal
      have hleading := zpow_magnitude_le_rounded hnum hden hnormal
      have hunit : (2 : ℚ) ^ lastBit num den / 2 = 2 ^ magnitude num den / 2 ^ 53 := by
        rw [hlast, zpow_sub₀ (by norm_num)]
        norm_num
        ring
      rw [hunit] at herror
      exact herror.trans (div_le_div_of_nonneg_right hleading (by norm_num))
    · right
      have hlast : lastBit num den = -1074 := max_eq_left hsubnormal.le
      have hhalf : (2 : ℚ) ^ (-1074 : ℤ) / 2 = 2 ^ (-1075 : ℤ) := by
        rw [div_eq_mul_inv, ← zpow_sub_one₀ (by norm_num)]
        norm_num
      rw [hlast, hhalf] at herror
      refine ⟨?_, herror⟩
      have htiny : (2 : ℚ) ^ (-1075 : ℤ) ≤ 2 ^ (-1 : ℤ) :=
        zpow_le_zpow_right₀ (by norm_num) (by norm_num)
      have hquotient : (num : ℚ) / den < 2 ^ (-1 : ℤ) :=
        hupper.trans_le (zpow_le_zpow_right₀ (by norm_num) (by omega))
      have hbelow := (abs_le.mp herror).1
      have hone : (2 : ℚ) ^ (-1 : ℤ) = 1 / 2 := by norm_num
      rw [hone] at htiny hquotient
      linarith
  · have hlast := (lastBit_le_iff hnum hden).mpr (by rw [hwhole]; exact_mod_cast hsmall)
    exact rounded_of_whole hden hwhole hlast
  · have hlast := mt (lastBit_le_iff hnum hden).mp (not_lt.mpr hlarge)
    have hmagnitude : 53 ≤ magnitude num den := by
      unfold lastBit at hlast
      omega
    calc (2 : ℚ) ^ 53 = 2 ^ (53 : ℤ) := by norm_num
      _ ≤ 2 ^ magnitude num den := zpow_le_zpow_right₀ (by norm_num) hmagnitude
      _ ≤ rounded num den := zpow_magnitude_le_rounded hnum hden (by omega)

/-- A number that is made of a quotient is infinite, or what the quotient may be rounded to. -/
theorem ofRatio_cases (negative : Bool) (hnum : num ≠ 0) (hden : 0 < den) :
    (ofRatio negative num den = .infinite negative ∧ 2 ^ 53 ≤ (num : ℚ) / den) ∨
      ∃ v, (ofRatio negative num den).value = some (sign negative * v) ∧
        Rounds ((num : ℚ) / den) v := by
  rcases value_ofRatio negative num hden with ⟨hinfinite, -, hlast⟩ | hvalue
  · have hlarge := mt (lastBit_le_iff hnum hden).mpr (by omega)
    exact .inl ⟨hinfinite, not_lt.mp hlarge⟩
  · exact .inr ⟨_, hvalue, rounds_rounded hnum hden⟩

end Quotient

/-- What is no more than half of the smallest number may be rounded to zero. -/
theorem rounds_zero {q : ℚ} (hnonneg : 0 ≤ q) (htiny : q ≤ 2 ^ (-1075 : ℤ)) : Rounds q 0 := by
  have hbelow : q < 1 := htiny.trans_lt (zpow_lt_one_of_neg₀ (by norm_num) (by norm_num))
  refine ⟨le_rfl, .inr ⟨one_pos, ?_⟩, fun n hwhole _ => ?_, fun hlarge => ?_⟩
  · rwa [sub_zero, abs_of_nonneg hnonneg]
  · rw [hwhole] at hbelow
    have hzero : n < 1 := by exact_mod_cast hbelow
    rw [Nat.lt_one_iff.mp hzero, Nat.cast_zero]
  · norm_num at hlarge
    linarith

/-- A decimal that is settled as zero is at most half of the smallest number. -/
theorem mul_zpow_le_of_log2 {significand : ℕ} {scale : ℤ}
    (hsmall : (significand.log2 : ℤ) + 1077 ≤ 3 * -scale) :
    (significand : ℚ) * 10 ^ scale ≤ 2 ^ (-1075 : ℤ) := by
  have hdigits : (significand : ℚ) ≤ 2 ^ ((significand.log2 : ℤ) + 1) := by
    exact_mod_cast (Nat.lt_log2_self (n := significand)).le
  obtain ⟨places, rfl⟩ : ∃ places : ℕ, scale = -(places : ℤ) := ⟨(-scale).toNat, by omega⟩
  have hscale : (10 : ℚ) ^ (-(places : ℤ)) ≤ 2 ^ (-(3 * places : ℤ)) := by
    have hpower : (2 : ℚ) ^ (3 * places : ℤ) = 8 ^ places := by
      rw [zpow_mul, zpow_natCast]
      norm_num
    rw [zpow_neg, zpow_neg, hpower, zpow_natCast]
    gcongr
    norm_num
  calc (significand : ℚ) * 10 ^ (-(places : ℤ))
      ≤ 2 ^ ((significand.log2 : ℤ) + 1) * 2 ^ (-(3 * places : ℤ)) := by gcongr
    _ = 2 ^ ((significand.log2 : ℤ) + 1 + -(3 * places)) := (zpow_add₀ (by norm_num) _ _).symm
    _ ≤ 2 ^ (-1075 : ℤ) := zpow_le_zpow_right₀ (by norm_num) (by omega)

/-- A number that is made of a decimal is infinite, or what the decimal may be rounded to. -/
theorem ofScientific_cases (negative : Bool) (significand : ℕ) (scale : ℤ) :
    (ofScientific negative significand scale = .infinite negative ∧
        2 ^ 53 ≤ (significand : ℚ) * 10 ^ scale) ∨
      ∃ v, (ofScientific negative significand scale).value = some (sign negative * v) ∧
        Rounds (significand * 10 ^ scale) v := by
  have hzero : value (.finite negative 0 0) = some (sign negative * 0) := by
    simp [value]
  unfold ofScientific
  split
  · rename_i hnone
    rw [hnone, Nat.cast_zero, zero_mul]
    exact .inr ⟨0, hzero, rounds_zero le_rfl (by positivity)⟩
  · rename_i hsignificand
    have hone : (1 : ℚ) ≤ significand := by exact_mod_cast Nat.one_le_iff_ne_zero.mpr hsignificand
    split
    · rename_i hlarge
      refine .inl ⟨rfl, ?_⟩
      calc (2 : ℚ) ^ 53 ≤ 10 ^ (16 : ℤ) := by norm_num
        _ ≤ 10 ^ scale := zpow_le_zpow_right₀ (by norm_num) (by omega)
        _ ≤ significand * 10 ^ scale := le_mul_of_one_le_left (by positivity) hone
    · split
      · rename_i hnonneg
        have hquotient : ((significand * Nat.pow 10 scale.toNat : ℕ) : ℚ) / (1 : ℕ) =
            significand * 10 ^ scale := by
          rw [Nat.cast_one, div_one, Nat.cast_mul, Nat.pow_eq, Nat.cast_pow, ← zpow_natCast,
            Int.toNat_of_nonneg hnonneg, Nat.cast_ofNat]
        rw [← hquotient]
        exact ofRatio_cases negative
          (Nat.mul_ne_zero hsignificand (Nat.pow_pos (by decide)).ne') Nat.one_pos
      · rename_i hnegative
        split
        · rename_i hsmall
          exact .inr ⟨0, hzero, rounds_zero (by positivity) (mul_zpow_le_of_log2 hsmall)⟩
        · have hquotient : (significand : ℚ) / (Nat.pow 10 (-scale).toNat : ℕ) =
              significand * 10 ^ scale := by
            rw [Nat.pow_eq, Nat.cast_pow, ← zpow_natCast, Int.toNat_of_nonneg (by omega),
              Nat.cast_ofNat, zpow_neg, div_inv_eq_mul]
          rw [← hquotient]
          exact ofRatio_cases negative hsignificand (Nat.pow_pos (by decide))

end AccountRegistry.Binary64
