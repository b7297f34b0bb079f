/-!
# Code units

Text as 16-bit code units, by which texts are put in order: a character beyond the basic plane is
a pair of units, which come before the last characters of that plane.

A text that is given by its units may have half a pair in it, for which there is no character.
Texts hold such a half as two characters, a mark and a carrier that tells which half it is; a mark
that stands for itself is held twice.  So different units are held as different texts
(`ofChars_toChars`), and text from elsewhere is held by `keep` and handed on by `plain`.
-/

namespace AccountRegistry.Units

/-- Whether a unit is the first half of a pair. -/
def isHigh (unit : Nat) : Bool :=
  0xd800 ≤ unit && unit < 0xdc00

/-- Whether a unit is the second half of a pair. -/
def isLow (unit : Nat) : Bool :=
  0xdc00 ≤ unit && unit < 0xe000

/-- Announces half a pair: the last of all characters, which no text is likely to use. -/
def mark : Char := Char.ofNat 0x10ffff

/-- The character that tells which half a mark announces. -/
def carrier (half : Nat) : Char := Char.ofNat (half + 0x800)

/-- The half that a character behind a mark tells. -/
def half? (c : Char) : Option Nat :=
  if 0xe000 ≤ c.toNat ∧ c.toNat < 0xe800 then some (c.toNat - 0x800) else none

/-- A character as texts hold it. -/
def hold (c : Char) : List Char :=
  if c = mark then [mark, mark] else [c]

/-- A unit that is not part of a pair, as texts hold it. -/
def holdUnit (unit : Nat) : List Char :=
  if isHigh unit || isLow unit then [mark, carrier unit] else [Char.ofNat unit]

/-- The code units of a character. -/
def ofChar (c : Char) : List Nat :=
  if c.toNat < 0x10000 then [c.toNat]
  else [0xd800 + (c.toNat - 0x10000) / 0x400, 0xdc00 + (c.toNat - 0x10000) % 0x400]

/-- The code units of the characters of a text. -/
def ofChars : List Char → List Nat
  | c :: next :: rest =>
      if c = mark then
        match half? next with
        | some half => half :: ofChars rest
        | none => ofChar next ++ ofChars rest
      else ofChar c ++ ofChars (next :: rest)
  | [c] => ofChar c
  | [] => []

/-- The characters that hold code units. -/
def toChars : List Nat → List Char
  | high :: low :: rest =>
      if isHigh high && isLow low then
        hold (Char.ofNat (0x10000 + (high - 0xd800) * 0x400 + (low - 0xdc00))) ++ toChars rest
      else holdUnit high ++ toChars (low :: rest)
  | [unit] => holdUnit unit
  | [] => []

/-- The code units of a text. -/
def ofText (text : String) : List Nat :=
  ofChars text.toList

/-- The text of code units. -/
def toText (units : List Nat) : String :=
  String.ofList (toChars units)

theorem toNat_ofNat_of_valid {n : Nat} (valid : n.isValidChar) : (Char.ofNat n).toNat = n := by
  rw [Char.ofNat, dif_pos valid]
  rfl

theorem ofChars_hold (c : Char) (rest : List Char) :
    ofChars (hold c ++ rest) = ofChar c ++ ofChars rest := by
  by_cases marked : c = mark
  · have told : half? mark = none := by decide
    simp [hold, marked, ofChars, told]
  · cases rest <;> simp [hold, marked, ofChars]

theorem ofChars_holdUnit {unit : Nat} (small : unit < 0x10000) (rest : List Char) :
    ofChars (holdUnit unit ++ rest) = unit :: ofChars rest := by
  by_cases half : (isHigh unit || isLow unit) = true
  · have range : 0xd800 ≤ unit ∧ unit < 0xe000 := by
      simp [isHigh, isLow] at half
      omega
    have told : (carrier unit).toNat = unit + 0x800 :=
      toNat_ofNat_of_valid (Or.inr (by omega))
    have found : half? (carrier unit) = some unit := by
      simp [half?, told]
      omega
    simp [holdUnit, half, ofChars, found]
  · have range : unit < 0xd800 ∨ 0xdfff < unit := by
      simp [isHigh, isLow] at half
      omega
    have told : (Char.ofNat unit).toNat = unit :=
      toNat_ofNat_of_valid (range.imp id fun high => ⟨high, by omega⟩)
    have other : Char.ofNat unit ≠ mark := by
      intro same
      have last : mark.toNat = 0x10ffff := by decide
      rw [← same, told] at last
      omega
    have own : ofChar (Char.ofNat unit) = [unit] := by simp [ofChar, told, small]
    cases rest <;> simp [holdUnit, half, ofChars, other, own]

theorem ofChar_pair {high low : Nat} (first : isHigh high = true) (second : isLow low = true) :
    ofChar (Char.ofNat (0x10000 + (high - 0xd800) * 0x400 + (low - 0xdc00))) = [high, low] := by
  simp [isHigh] at first
  simp [isLow] at second
  have told : (Char.ofNat (0x10000 + (high - 0xd800) * 0x400 + (low - 0xdc00))).toNat =
      0x10000 + (high - 0xd800) * 0x400 + (low - 0xdc00) :=
    toNat_ofNat_of_valid (Or.inr (by omega))
  rw [ofChar, told, if_neg (by omega)]
  simp
  omega

/-- Units are read back from the text that holds them. -/
theorem ofChars_toChars (units : List Nat) (small : ∀ unit ∈ units, unit < 0x10000) :
    ofChars (toChars units) = units := by
  fun_induction toChars units with
  | case1 high low rest pair ih =>
    simp only [Bool.and_eq_true] at pair
    rw [ofChars_hold, ofChar_pair pair.1 pair.2, ih (by simp_all)]
    rfl
  | case2 high low rest _ ih =>
    rw [ofChars_holdUnit (small high (by simp)), ih (by simp_all)]
  | case3 unit =>
    have alone := ofChars_holdUnit (small unit (by simp)) []
    simpa [ofChars] using alone
  | case4 => rfl

/-- Text from elsewhere, in which no character is more than itself. -/
def keep (text : String) : String :=
  String.ofList (text.toList.flatMap hold)

/-- Stands for what no character stands for. -/
def replacement : Char := '\ufffd'

/-- The characters of a text that each stand for themselves. -/
def plainChars : List Char → List Char
  | c :: next :: rest =>
      if c = mark then (if next = mark then mark else replacement) :: plainChars rest
      else c :: plainChars (next :: rest)
  | [c] => [c]
  | [] => []

/-- The text for elsewhere: half a pair is replaced. -/
def plain (text : String) : String :=
  String.ofList (plainChars text.toList)

theorem plainChars_hold (c : Char) (rest : List Char) :
    plainChars (hold c ++ rest) = c :: plainChars rest := by
  by_cases marked : c = mark
  · simp [hold, marked, plainChars]
  · cases rest <;> simp [hold, marked, plainChars]

@[simp] theorem plain_keep (text : String) : plain (keep text) = text := by
  have chars : ∀ held : List Char, plainChars (held.flatMap hold) = held := by
    intro held
    induction held with
    | nil => rfl
    | cons c rest ih => rw [List.flatMap_cons, plainChars_hold, ih]
  simp [plain, keep, chars]

/-- Whether a list of units comes before another one or equals it. -/
def le : List Nat → List Nat → Bool
  | [], _ => true
  | _ :: _, [] => false
  | u :: us, v :: vs => if u = v then le us vs else u < v

/-- Whether a text comes before another one or equals it. -/
def ordered (first second : String) : Bool :=
  le (ofText first) (ofText second)

end AccountRegistry.Units
