import AccountRegistry.Text.Numeral
import Mathlib.Data.List.Induction

/-!
# Numerals are read as they are written

The reader of numerals accepts the texts of the grammar and no others, and finds the number that
the grammar gives them.
-/

namespace AccountRegistry.Numeral

open Digits

variable {base : Nat} {value? : Char → Option Nat} {digits : List Char} {n : Nat}

theorem positional?_of_ne_nil (hdigits : digits ≠ []) :
    positional? base value? digits = (digits.mapM value?).map (ofDigits base) := by
  cases digits with
  | nil => exact absurd rfl hdigits
  | cons c rest => rfl

theorem positional?_singleton (c : Char) : positional? base value? [c] = value? c := by
  cases hdigit : value? c with
  | none => simp [positional?, hdigit]
  | some v => simp [positional?, hdigit, ofDigits]

/-- A digit that is added at the end of a run counts once, and what was there counts for the base.
-/
theorem positional?_append_singleton (hdigits : digits ≠ []) (c : Char) :
    positional? base value? (digits ++ [c]) = some n ↔
      ∃ front last, positional? base value? digits = some front ∧ value? c = some last ∧
        front * base + last = n := by
  rw [positional?_of_ne_nil hdigits, positional?_of_ne_nil (by simp), List.mapM_append]
  cases hfront : digits.mapM value? with
  | none => simp
  | some values =>
      cases hlast : value? c with
      | none => simp [hlast]
      | some last => simp [hlast, ofDigits]

/-- A run of digits is read as its positional value. -/
theorem positional?_eq_some_iff :
    positional? base value? digits = some n ↔ Positional base value? digits n := by
  constructor
  · intro hread
    induction digits using List.reverseRecOn generalizing n with
    | nil => cases hread
    | append_singleton digits c ih =>
        rcases eq_or_ne digits [] with rfl | hdigits
        · rw [List.nil_append, positional?_singleton] at hread
          exact .single hread
        · obtain ⟨front, last, hfront, hlast, rfl⟩ :=
            (positional?_append_singleton hdigits c).mp hread
          exact .snoc (ih hfront) hlast
  · intro hrun
    induction hrun with
    | single digit => rwa [positional?_singleton]
    | snoc front digit ih =>
        refine (positional?_append_singleton ?_ _).mpr ⟨_, _, ih, digit, rfl⟩
        rintro rfl
        cases ih

/-- The letter of the hexadecimal form is no decimal digit. -/
theorem not_positional_decimal (rest : List Char) (n : Nat) :
    ¬Positional 10 decimalValue? ('0' :: 'x' :: rest) n := by
  rw [← positional?_eq_some_iff]
  simp [positional?, decimalValue?]

/-- A text is read as a numeral exactly if it is one. -/
theorem read?_eq_some_iff {text : List Char} : read? text = some n ↔ Denotes text n := by
  constructor
  · intro hread
    unfold read? at hread
    split at hread
    · exact .hex (positional?_eq_some_iff.mp hread)
    · exact .decimal (positional?_eq_some_iff.mp hread)
  · intro hdenotes
    cases hdenotes with
    | hex run => exact positional?_eq_some_iff.mpr run
    | decimal run =>
        unfold read?
        split
        · exact absurd run (not_positional_decimal _ n)
        · exact positional?_eq_some_iff.mpr run

end AccountRegistry.Numeral
