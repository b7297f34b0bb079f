import AccountRegistry.Json.Parser
import AccountRegistry.Proofs.Literals
import AccountRegistry.Proofs.Numerals
import AccountRegistry.Proofs.Procedure

/-!
# The spelling of numbers

`Literal.Spells` is the grammar of JSON numbers, with the literal that each of them is.  The reader
takes a number of the grammar off the front of a text (`JsonText.spells_of_readNumber`), and every
number of the grammar is read if what follows does not go on with it
(`JsonText.readNumber_of_spells`).
-/

namespace AccountRegistry

open Digits Numeral

/-! ## The grammar -/

namespace Literal

/-- The digits before a point: a zero, or digits of which the first is none. -/
inductive Whole : List Char → ℕ → Prop
  | zero : Whole ['0'] 0
  | digits {run : List Char} {n : ℕ} (first : run.head? ≠ some '0')
      (run_eq : Positional 10 decimalValue? run n) : Whole run n

/-- A fraction: nothing, or a point and digits, which are kept with their number. -/
inductive Fraction : List Char → Option (ℕ × ℕ) → Prop
  | none : Fraction [] none
  | digits {run : List Char} {n : ℕ} (run_eq : Positional 10 decimalValue? run n) :
      Fraction ('.' :: run) (some (n, run.length))

/-- An exponent: nothing, or a mark, a sign or none, and digits. -/
inductive Exponent : List Char → Option ℤ → Prop
  | none : Exponent [] none
  | unsigned {mark : Char} {run : List Char} {n : ℕ} (mark_mem : mark ∈ ['e', 'E'])
      (run_eq : Positional 10 decimalValue? run n) : Exponent (mark :: run) (some n)
  | plus {mark : Char} {run : List Char} {n : ℕ} (mark_mem : mark ∈ ['e', 'E'])
      (run_eq : Positional 10 decimalValue? run n) : Exponent (mark :: '+' :: run) (some n)
  | minus {mark : Char} {run : List Char} {n : ℕ} (mark_mem : mark ∈ ['e', 'E'])
      (run_eq : Positional 10 decimalValue? run n) : Exponent (mark :: '-' :: run) (some (-n))

/-- A text that writes a number, without its sign. -/
inductive Unsigned : List Char → Literal → Prop
  | parts {negative : Bool} {whole fraction exponent : List Char} {n : ℕ} {digits : Option (ℕ × ℕ)}
      {power : Option ℤ} (whole_eq : Whole whole n) (fraction_eq : Fraction fraction digits)
      (exponent_eq : Exponent exponent power) :
      Unsigned (whole ++ fraction ++ exponent) ⟨negative, n, digits, power⟩

/-- A text that writes a number. -/
inductive Spells : List Char → Literal → Prop
  | positive {spelled : List Char} {literal : Literal} (sign : literal.negative = false)
      (unsigned : Unsigned spelled literal) : Spells spelled literal
  | negative {spelled : List Char} {literal : Literal} (sign : literal.negative = true)
      (unsigned : Unsigned spelled literal) : Spells ('-' :: spelled) literal

/-- A text that writes an integer: a minus sign or none, and digits. -/
inductive SpellsInteger : List Char → ℤ → Prop
  | positive {whole : List Char} {n : ℕ} (whole_eq : Whole whole n) : SpellsInteger whole n
  | negative {whole : List Char} {n : ℕ} (whole_eq : Whole whole n) :
      SpellsInteger ('-' :: whole) (-n)

/-- Without a fraction and an exponent an integer is spelled. -/
theorem Spells.integer {spelled : List Char} {literal : Literal} (hspells : Spells spelled literal)
    (hinteger : literal.IsInteger) : SpellsInteger spelled literal.integer := by
  have hwhole {spelled : List Char} (hunsigned : Unsigned spelled literal) :
      Whole spelled literal.whole := by
    obtain ⟨whole_eq, fraction_eq, exponent_eq⟩ := hunsigned
    obtain ⟨rfl, rfl⟩ := hinteger
    cases fraction_eq
    cases exponent_eq
    simpa only [List.append_nil] using whole_eq
  cases hspells with
  | positive sign unsigned =>
      rw [Literal.integer, sign, if_neg Bool.false_ne_true]
      exact .positive (hwhole unsigned)
  | negative sign unsigned =>
      rw [Literal.integer, sign, if_pos rfl]
      exact .negative (hwhole unsigned)

end Literal

/-! ## Reading a number -/

namespace JsonText

variable {text rest : List Char} {n count : ℕ}

/-- What a run of digits passes over, and what it counts. -/
theorem digitRun_spec (text : List Char) (value count : ℕ) :
    ∃ run values, text = run ++ (digitRun text value count).2.2 ∧
      run.mapM decimalValue? = some values ∧
      (digitRun text value count).1 =
        values.foldl (fun value digit => value * 10 + digit) value ∧
      (digitRun text value count).2.1 = count + run.length := by
  -- what was counted before the run is arbitrary, since each digit adds to it
  induction text generalizing value count with
  | nil => exact ⟨[], [], rfl, rfl, rfl, rfl⟩
  | cons c text ih =>
      rw [digitRun]
      cases hdigit : decimalValue? c with
      | none => exact ⟨[], [], rfl, rfl, rfl, rfl⟩
      | some digit =>
          obtain ⟨run, values, htext, hvalues, hvalue, hcount⟩ :=
            ih (value * 10 + digit) (count + 1)
          refine ⟨c :: run, digit :: values, congrArg (c :: ·) htext, ?_, hvalue, ?_⟩
          · simp [hdigit, hvalues]
          · rw [hcount, List.length_cons]
            omega

/-- A run of digits that is not empty is one of the grammar. -/
theorem positional_of_digitRun (hrun : digitRun text 0 0 = (n, count + 1, rest)) :
    ∃ run, text = run ++ rest ∧ run.length = count + 1 ∧ Positional 10 decimalValue? run n := by
  obtain ⟨run, values, htext, hvalues, hvalue, hcount⟩ := digitRun_spec text 0 0
  rw [hrun] at htext hvalue hcount
  dsimp only at htext hvalue hcount
  have hlength : run.length = count + 1 := by omega
  have hnonempty : run ≠ [] := List.ne_nil_of_length_eq_add_one hlength
  refine ⟨run, htext, hlength, positional?_eq_some_iff.mp ?_⟩
  rw [positional?_of_ne_nil hnonempty, hvalues, Option.map_some, hvalue, ofDigits]

theorem whole_of_readWhole (hread : readWhole text = .ok (n, rest)) :
    ∃ spelled, text = spelled ++ rest ∧ Literal.Whole spelled n := by
  unfold readWhole at hread
  split at hread
  · cases hread
    exact ⟨['0'], rfl, .zero⟩
  · rename_i hfirst
    split at hread
    · cases hread
    · rename_i hrun
      cases hread
      obtain ⟨run, rfl, -, hpositional⟩ := positional_of_digitRun hrun
      refine ⟨run, rfl, .digits (fun hzero => ?_) hpositional⟩
      obtain ⟨tail, rfl⟩ := List.head?_eq_some_iff.mp hzero
      exact hfirst _ rfl

theorem fraction_of_readFraction {digits : Option (ℕ × ℕ)}
    (hread : readFraction text = .ok (digits, rest)) :
    ∃ spelled, text = spelled ++ rest ∧ Literal.Fraction spelled digits := by
  unfold readFraction at hread
  split at hread
  · split at hread
    · cases hread
    · rename_i hrun
      cases hread
      obtain ⟨run, rfl, hlength, hpositional⟩ := positional_of_digitRun hrun
      exact ⟨'.' :: run, rfl, hlength ▸ .digits hpositional⟩
  · cases hread
    exact ⟨[], rfl, .none⟩

theorem positional_of_readPower {negative : Bool} {power : Option ℤ}
    (hread : readPower negative text = .ok (power, rest)) :
    ∃ run n, text = run ++ rest ∧ Positional 10 decimalValue? run n ∧
      power = some (if negative then -(n : ℤ) else n) := by
  unfold readPower at hread
  split at hread
  · cases hread
  · rename_i hrun
    cases hread
    obtain ⟨run, rfl, -, hpositional⟩ := positional_of_digitRun hrun
    exact ⟨run, _, rfl, hpositional, rfl⟩

theorem exponent_of_readExponent {power : Option ℤ}
    (hread : readExponent text = .ok (power, rest)) :
    ∃ spelled, text = spelled ++ rest ∧ Literal.Exponent spelled power := by
  unfold readExponent at hread
  split at hread
  · rename_i mark _
    split at hread
    · rename_i hmark
      have hmem : mark ∈ ['e', 'E'] := by simpa using hmark
      split at hread
      · obtain ⟨run, n, rfl, hrun, rfl⟩ := positional_of_readPower hread
        exact ⟨mark :: '+' :: run, rfl, .plus hmem hrun⟩
      · obtain ⟨run, n, rfl, hrun, rfl⟩ := positional_of_readPower hread
        exact ⟨mark :: '-' :: run, rfl, .minus hmem hrun⟩
      · obtain ⟨run, n, rfl, hrun, rfl⟩ := positional_of_readPower hread
        exact ⟨mark :: run, rfl, .unsigned hmem hrun⟩
    · cases hread
      exact ⟨[], rfl, .none⟩
  · cases hread
    exact ⟨[], rfl, .none⟩

theorem unsigned_of_readUnsigned {negative : Bool} {literal : Literal}
    (hread : readUnsigned negative text = .ok (literal, rest)) :
    literal.negative = negative ∧
      ∃ spelled, text = spelled ++ rest ∧ Literal.Unsigned spelled literal := by
  unfold readUnsigned at hread
  obtain ⟨⟨n, afterWhole⟩, hreadWhole, hread⟩ := except_bind_eq_ok.mp hread
  obtain ⟨⟨digits, afterFraction⟩, hreadFraction, hread⟩ := except_bind_eq_ok.mp hread
  obtain ⟨⟨power, after⟩, hreadExponent, hread⟩ := except_bind_eq_ok.mp hread
  cases hread
  obtain ⟨whole, rfl, hwhole⟩ := whole_of_readWhole hreadWhole
  obtain ⟨fraction, rfl, hfraction⟩ := fraction_of_readFraction hreadFraction
  obtain ⟨exponent, rfl, hexponent⟩ := exponent_of_readExponent hreadExponent
  refine ⟨rfl, whole ++ fraction ++ exponent, ?_, .parts hwhole hfraction hexponent⟩
  simp only [List.append_assoc]

/-- A number is read as the literal that the passed text spells. -/
theorem spells_of_readNumber {literal : Literal} (hread : readNumber text = .ok (literal, rest)) :
    ∃ spelled, text = spelled ++ rest ∧ Literal.Spells spelled literal := by
  unfold readNumber at hread
  split at hread
  · obtain ⟨hsign, spelled, rfl, hunsigned⟩ := unsigned_of_readUnsigned hread
    exact ⟨'-' :: spelled, rfl, .negative hsign hunsigned⟩
  · obtain ⟨hsign, spelled, rfl, hunsigned⟩ := unsigned_of_readUnsigned hread
    exact ⟨spelled, rfl, .positive hsign hunsigned⟩

/-! ## Numbers of the grammar are read -/

/-- No digit follows. -/
def EndsDigits (rest : List Char) : Prop :=
  ∀ c ∈ rest.head?, decimalValue? c = none

/-- Nothing follows that a whole part would go on with. -/
def EndsWhole (rest : List Char) : Prop :=
  ∀ c ∈ rest.head?, decimalValue? c = none ∧ c ≠ '.'

/-- Nothing follows that a number would go on with. -/
def EndsNumber (rest : List Char) : Prop :=
  ∀ c ∈ rest.head?, decimalValue? c = none ∧ c ≠ '.' ∧ c ∉ ['e', 'E']

theorem EndsNumber.endsWhole (hends : EndsNumber rest) : EndsWhole rest :=
  fun c hc => ⟨(hends c hc).1, (hends c hc).2.1⟩

theorem EndsWhole.endsDigits (hends : EndsWhole rest) : EndsDigits rest :=
  fun c hc => (hends c hc).1

theorem digitRun_append {run : List Char} {values : List ℕ}
    (hvalues : run.mapM decimalValue? = some values) (hends : EndsDigits rest) (value count : ℕ) :
    digitRun (run ++ rest) value count =
      (values.foldl (fun value digit => value * 10 + digit) value, count + run.length, rest) := by
  induction run generalizing values value count with
  | nil =>
      cases hvalues
      cases rest with
      | nil => rfl
      | cons c rest =>
          rw [List.nil_append, digitRun, hends c rfl]
          rfl
  | cons c run ih =>
      rw [List.mapM_cons] at hvalues
      obtain ⟨digit, hdigit, hvalues⟩ := Option.bind_eq_some_iff.mp hvalues
      obtain ⟨others, hothers, hvalues⟩ := Option.bind_eq_some_iff.mp hvalues
      cases hvalues
      rw [List.cons_append, digitRun, hdigit]
      dsimp only
      rw [ih hothers, List.foldl_cons, List.length_cons, Nat.add_assoc, Nat.add_comm 1]

/-- A run of digits is read up to its end. -/
theorem digitRun_of_positional {run : List Char} (hrun : Positional 10 decimalValue? run n)
    (hends : EndsDigits rest) :
    ∃ count, run.length = count + 1 ∧ digitRun (run ++ rest) 0 0 = (n, count + 1, rest) := by
  have hread := positional?_eq_some_iff.mpr hrun
  cases run with
  | nil => cases hread
  | cons c run =>
      obtain ⟨values, hvalues, rfl⟩ := Option.map_eq_some_iff.mp hread
      refine ⟨run.length, rfl, ?_⟩
      rw [digitRun_append hvalues hends, Nat.zero_add, List.length_cons, ofDigits]

theorem readWhole_of_whole {spelled : List Char} (hwhole : Literal.Whole spelled n)
    (hends : EndsDigits rest) : readWhole (spelled ++ rest) = .ok (n, rest) := by
  cases hwhole with
  | zero => rfl
  | digits first run_eq =>
      obtain ⟨count, hlength, hrun⟩ := digitRun_of_positional run_eq hends
      unfold readWhole
      split
      · -- a run that starts with a zero is none of the grammar
        rename_i htext
        cases spelled with
        | nil => cases hlength
        | cons c spelled =>
            cases htext
            exact absurd rfl first
      · rw [hrun]

theorem readFraction_of_fraction {spelled : List Char} {digits : Option (ℕ × ℕ)}
    (hfraction : Literal.Fraction spelled digits) (hends : EndsWhole rest) :
    readFraction (spelled ++ rest) = .ok (digits, rest) := by
  cases hfraction with
  | none =>
      rw [List.nil_append]
      unfold readFraction
      split
      · exact absurd rfl (hends '.' rfl).2
      · rfl
  | digits run_eq =>
      obtain ⟨count, hlength, hrun⟩ := digitRun_of_positional run_eq hends.endsDigits
      rw [List.cons_append, readFraction, hrun, hlength]

theorem readPower_of_positional {run : List Char} (hrun : Positional 10 decimalValue? run n)
    (hends : EndsDigits rest) (negative : Bool) :
    readPower negative (run ++ rest) =
      .ok (some (if negative then -(n : ℤ) else n), rest) := by
  obtain ⟨count, -, hread⟩ := digitRun_of_positional hrun hends
  rw [readPower, hread]

/-- A run of digits starts with one. -/
theorem digit_of_positional {run : List Char} (hrun : Positional 10 decimalValue? run n) :
    ∃ c tail, run = c :: tail ∧ decimalValue? c ≠ none := by
  have hread := positional?_eq_some_iff.mpr hrun
  cases run with
  | nil => cases hread
  | cons c tail =>
      obtain ⟨values, hvalues, -⟩ := Option.map_eq_some_iff.mp hread
      rw [List.mapM_cons] at hvalues
      obtain ⟨digit, hdigit, -⟩ := Option.bind_eq_some_iff.mp hvalues
      exact ⟨c, tail, rfl, by simp [hdigit]⟩

theorem readExponent_of_exponent {spelled : List Char} {power : Option ℤ}
    (hexponent : Literal.Exponent spelled power) (hends : EndsNumber rest) :
    readExponent (spelled ++ rest) = .ok (power, rest) := by
  have hdigits : EndsDigits rest := hends.endsWhole.endsDigits
  have hmarked {mark : Char} (hmem : mark ∈ ['e', 'E']) : (mark == 'e' || mark == 'E') = true := by
    simpa using hmem
  rw [readExponent.eq_def]
  cases hexponent with
  | none =>
      cases rest with
      | nil => rfl
      | cons c rest =>
          have hmark : ¬(c == 'e' || c == 'E') = true := by simpa using (hends c rfl).2.2
          exact if_neg hmark
  | plus mark_mem run_eq =>
      exact (if_pos (hmarked mark_mem)).trans (readPower_of_positional run_eq hdigits false)
  | minus mark_mem run_eq =>
      exact (if_pos (hmarked mark_mem)).trans (readPower_of_positional run_eq hdigits true)
  | unsigned mark_mem run_eq =>
      refine (if_pos (hmarked mark_mem)).trans ?_
      -- the first digit is no sign
      obtain ⟨c, tail, rfl, hdigit⟩ := digit_of_positional run_eq
      split
      · rename_i hsign
        cases hsign
        exact absurd rfl hdigit
      · rename_i hsign
        cases hsign
        exact absurd rfl hdigit
      · exact readPower_of_positional run_eq hdigits false

/-- The digits of a fraction, and a whole part, end before an exponent and what follows it. -/
theorem endsWhole_of_exponent {spelled : List Char} {power : Option ℤ}
    (hexponent : Literal.Exponent spelled power) (hends : EndsNumber rest) :
    EndsWhole (spelled ++ rest) := by
  have hmark {mark c : Char} {run : List Char} (hmem : mark ∈ ['e', 'E'])
      (hc : c ∈ (mark :: run).head?) : decimalValue? c = none ∧ c ≠ '.' := by
    cases hc
    rcases List.mem_pair.mp hmem with rfl | rfl <;> decide
  intro c hc
  cases hexponent with
  | none => exact hends.endsWhole c hc
  | unsigned mark_mem _ => exact hmark mark_mem hc
  | plus mark_mem _ => exact hmark mark_mem hc
  | minus mark_mem _ => exact hmark mark_mem hc

theorem endsDigits_of_fraction {spelled : List Char} {digits : Option (ℕ × ℕ)}
    (hfraction : Literal.Fraction spelled digits) (hends : EndsWhole rest) :
    EndsDigits (spelled ++ rest) := by
  intro c hc
  cases hfraction with
  | none => exact hends.endsDigits c hc
  | digits _ =>
      cases hc
      decide

theorem readUnsigned_of_unsigned {spelled : List Char} {literal : Literal}
    (hunsigned : Literal.Unsigned spelled literal) (hends : EndsNumber rest) :
    readUnsigned literal.negative (spelled ++ rest) = .ok (literal, rest) := by
  obtain ⟨whole_eq, fraction_eq, exponent_eq⟩ := hunsigned
  have hwhole := endsWhole_of_exponent exponent_eq hends
  rw [readUnsigned, List.append_assoc, List.append_assoc,
    readWhole_of_whole whole_eq (endsDigits_of_fraction fraction_eq hwhole)]
  dsimp only [bind, Except.bind]
  rw [readFraction_of_fraction fraction_eq hwhole]
  dsimp only
  rw [readExponent_of_exponent exponent_eq hends]
  rfl

/-- A number starts with a digit, apart from its sign. -/
theorem digit_of_unsigned {spelled : List Char} {literal : Literal}
    (hunsigned : Literal.Unsigned spelled literal) :
    ∃ c tail, spelled = c :: tail ∧ decimalValue? c ≠ none := by
  obtain ⟨whole_eq, fraction_eq, exponent_eq⟩ := hunsigned
  cases whole_eq with
  | zero => exact ⟨'0', _, rfl, by decide⟩
  | digits first run_eq =>
      obtain ⟨c, tail, rfl, hdigit⟩ := digit_of_positional run_eq
      exact ⟨c, _, rfl, hdigit⟩

/-- A number that the grammar spells is read as its literal, if it ends there. -/
theorem readNumber_of_spells {spelled : List Char} {literal : Literal}
    (hspells : Literal.Spells spelled literal) (hends : EndsNumber rest) :
    readNumber (spelled ++ rest) = .ok (literal, rest) := by
  cases hspells with
  | negative sign unsigned =>
      have hread := readUnsigned_of_unsigned unsigned hends
      rwa [sign] at hread
  | positive sign unsigned =>
      have hread := readUnsigned_of_unsigned unsigned hends
      rw [sign] at hread
      unfold readNumber
      split
      · rename_i hsign
        obtain ⟨c, tail, rfl, hdigit⟩ := digit_of_unsigned unsigned
        cases hsign
        exact absurd rfl hdigit
      · exact hread

/-- A number starts with its sign or a digit. -/
theorem head_of_spells {spelled : List Char} {literal : Literal}
    (hspells : Literal.Spells spelled literal) :
    ∃ c tail, spelled = c :: tail ∧ (c = '-' ∨ decimalValue? c ≠ none) := by
  cases hspells with
  | negative sign unsigned => exact ⟨'-', _, rfl, .inl rfl⟩
  | positive sign unsigned =>
      obtain ⟨c, tail, rfl, hdigit⟩ := digit_of_unsigned unsigned
      exact ⟨c, tail, rfl, .inr hdigit⟩

end JsonText

end AccountRegistry
