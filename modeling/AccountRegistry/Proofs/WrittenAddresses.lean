import AccountRegistry.Proofs.Numerals
import AccountRegistry.Proofs.Preimages

/-!
# Addresses are read as they are written

An address is written in hexadecimal digits of a fixed width, which the reader of numerals gives
back.  The letters of an EVM address stand in the case that its checksum demands; the reader passes
over it.

* `Digits.positional?_hexFixed`: digits of a fixed width write the last places of a number.
* `Digits.positional?_map_toLower`: the case of letters has no part in what digits write.
* `Address.map_toLower_checksum`: the checksum changes the case of letters and nothing else.
* `Address.addresses_are_read_as_written`: both forms of addresses are read back, and what that
  says about the forms.
-/

namespace AccountRegistry

/-! ## Hexadecimal digits -/

namespace Digits

variable {width n i d : ℕ}

theorem hexValue?_hexDigit (hd : d < 16) : hexValue? (hexDigit d) = some d := by
  have hall : ∀ d < 16, hexValue? (hexDigit d) = some d := by decide
  exact hall d hd

theorem toLower_toUpper_hexDigit (hd : d < 16) : (hexDigit d).toUpper.toLower = hexDigit d := by
  have hall : ∀ d < 16, (hexDigit d).toUpper.toLower = hexDigit d := by decide
  exact hall d hd

theorem toLower_hexDigit (hd : d < 16) : (hexDigit d).toLower = hexDigit d := by
  have hall : ∀ d < 16, (hexDigit d).toLower = hexDigit d := by decide
  exact hall d hd

/-- The case of a letter has no part in its value. -/
theorem hexValue?_toLower (c : Char) : hexValue? c.toLower = hexValue? c := by
  by_cases hupper : c.val ≥ 'A'.val ∧ c.val ≤ 'Z'.val
  · have hall : ∀ k ≤ 90, hexValue? (Char.ofNat k).toLower = hexValue? (Char.ofNat k) := by
      decide
    have hbound : c.toNat ≤ 90 := hupper.2
    rw [← Char.ofNat_toNat c]
    exact hall c.toNat hbound
  · have hsame : c.toLower = c := dif_neg hupper
    rw [hsame]

/-- The case of letters has no part in what digits write. -/
theorem positional?_map_toLower (digits : List Char) :
    positional? 16 hexValue? (digits.map Char.toLower) = positional? 16 hexValue? digits := by
  have hvalues : (digits.map Char.toLower).mapM hexValue? = digits.mapM hexValue? := by
    rw [List.mapM_map]
    congr 1
    exact funext hexValue?_toLower
  cases digits with
  | nil => rfl
  | cons c rest => exact congrArg (Option.map (ofDigits 16)) hvalues

/-- The digit at a place of a number that is written in a fixed width. -/
theorem getElem?_hexFixed (hi : i < width) :
    (hexFixed width n)[i]? = some (hexDigit (n / 16 ^ (width - 1 - i) % 16)) := by
  induction width generalizing n with
  | zero => omega
  | succ width ih =>
      rw [hexFixed]
      by_cases hlast : i = width
      · subst hlast
        rw [List.getElem?_append_right (by rw [hexFixed_length]), hexFixed_length]
        simp
      · have hbefore : i < width := by omega
        have hplace : width + 1 - 1 - i = width - 1 - i + 1 := by omega
        rw [List.getElem?_append_left (by rwa [hexFixed_length]), ih hbefore, hplace, Nat.pow_succ',
          Nat.div_div_eq_div_mul]

/-- Every digit of a fixed width is one of the sixteen. -/
theorem exists_of_mem_hexFixed {c : Char} (hmem : c ∈ hexFixed width n) :
    ∃ d < 16, c = hexDigit d := by
  induction width generalizing n with
  | zero => cases hmem
  | succ width ih =>
      rw [hexFixed, List.mem_append, List.mem_singleton] at hmem
      rcases hmem with hfront | hlast
      · exact ih hfront
      · exact ⟨n % 16, Nat.mod_lt _ (by decide), hlast⟩

theorem hexText_eq (digits : List Char) :
    "0x" ++ String.ofList digits = String.ofList ('0' :: 'x' :: digits) := by
  have happend : String.ofList (['0', 'x'] ++ digits) =
      String.ofList ['0', 'x'] ++ String.ofList digits := String.ofList_append
  exact happend.symm

theorem hexFixed_ne_nil (hwidth : width ≠ 0) : hexFixed width n ≠ [] := by
  intro hnil
  have hlength := hexFixed_length width n
  rw [hnil] at hlength
  exact hwidth hlength.symm

/-- The digits of a fixed width write the remainder of a number. -/
theorem positional?_hexFixed (hwidth : width ≠ 0) :
    positional? 16 hexValue? (hexFixed width n) = some (n % 16 ^ width) := by
  have hvalues (width n : ℕ) : ((hexFixed width n).mapM hexValue?).map (ofDigits 16) =
      some (n % 16 ^ width) := by
    induction width generalizing n with
    | zero => rw [Nat.pow_zero, Nat.mod_one]; rfl
    | succ width ih =>
        obtain ⟨values, hfront, hvalue⟩ := Option.map_eq_some_iff.mp (ih (n / 16))
        have hlast : hexValue? (hexDigit (n % 16)) = some (n % 16) :=
          hexValue?_hexDigit (Nat.mod_lt _ (by decide))
        calc ((hexFixed (width + 1) n).mapM hexValue?).map (ofDigits 16)
            = some (ofDigits 16 values * 16 + n % 16) := by
              simp [hexFixed, List.mapM_append, hfront, hlast, ofDigits]
          _ = some (n / 16 % 16 ^ width * 16 + n % 16) := by rw [hvalue]
          _ = some (n % (16 * 16 ^ width)) := by rw [Nat.mod_mul]; congr 1; omega
          _ = some (n % 16 ^ (width + 1)) := by rw [Nat.pow_succ']
  rw [Numeral.positional?_of_ne_nil (hexFixed_ne_nil hwidth)]
  exact hvalues width n

end Digits

namespace Address

open Digits Numeral

variable {value n e : ℤ} {text : String}

/-! ## Reading -/

/-- A text is read as a native address exactly if it is a numeral of one. -/
theorem parseNative_eq_ok :
    parseNative text = .ok n ↔ ∃ m : ℕ, Denotes text.toList m ∧ n = m ∧ n < 2 ^ 251 - 256 := by
  have hnative (m : ℕ) : native m = .ok n ↔ n = m ∧ n < 2 ^ 251 - 256 := by
    have hrange : IsNative (m : ℤ) ↔ (m : ℤ) < 2 ^ 251 - 256 :=
      isNative_iff.trans (and_iff_right (Int.natCast_nonneg m))
    rw [native]
    split
    · rename_i hin
      rw [Except.ok.injEq]
      constructor
      · rintro rfl
        exact ⟨rfl, hrange.mp hin⟩
      · exact fun h => h.1.symm
    · rename_i hout
      simp only [reduceCtorEq, false_iff]
      rintro ⟨rfl, hupper⟩
      exact hout (hrange.mpr hupper)
  simp only [← read?_eq_some_iff]
  rw [parseNative, ofText?]
  cases read? text.toList with
  | none => simp
  | some m => simp [hnative]

/-- What hexadecimal digits write is read, if it is in range. -/
theorem parseNative_hex {digits : List Char} {m : ℕ}
    (hdigits : positional? 16 hexValue? digits = some m) (hrange : (m : ℤ) < 2 ^ 251 - 256) :
    parseNative (String.ofList ('0' :: 'x' :: digits)) = .ok m := by
  rw [parseNative_eq_ok, String.toList_ofList]
  exact ⟨m, .hex (positional?_eq_some_iff.mp hdigits), rfl, hrange⟩

/-! ## Writing -/

/-- The integers of a word have a written form as native addresses, and no others have one. -/
theorem formatNative_eq (value : ℤ) :
    formatNative value =
      if 0 ≤ value ∧ value < 2 ^ 256 then
        .ok (String.ofList ('0' :: 'x' :: hexFixed 64 value.toNat))
      else .error (.unsignedRange value 256) := by
  rw [← Word.upperBound_eq, formatNative, Word.ofInt?]
  by_cases hrange : 0 ≤ value ∧ value < Word.upperBound
  · have hsmall : value.toNat < 2 ^ 256 := by
      have hupper := hrange.2
      rw [Word.upperBound_eq] at hupper
      omega
    rw [if_pos hrange, if_pos hrange]
    show Except.ok (Word.hex (BitVec.ofNat 256 value.toNat)) = _
    rw [Word.hex, BitVec.toNat_ofNat, Nat.mod_eq_of_lt hsmall, hexPadded, hexText_eq]
  · rw [if_neg hrange, if_neg hrange]

/-- The integers of 160 bits have a written form as EVM addresses, and no others have one. -/
theorem formatEvm_eq (hash : Hash) (value : ℤ) :
    formatEvm hash value =
      if 0 ≤ value ∧ value < 2 ^ 160 then
        .ok (String.ofList ('0' :: 'x' :: checksum hash (hexFixed 40 value.toNat)))
      else .error (.unsignedRange value 160) := by
  have hrange : IsEvm value ↔ 0 ≤ value ∧ value < 2 ^ 160 := isEvm_iff
  simp only [formatEvm, hrange, hexText_eq]

theorem formatEvm_of_isEvm (hash : Hash) (hrange : IsEvm e) :
    formatEvm hash e = .ok (String.ofList ('0' :: 'x' :: checksum hash (hexFixed 40 e.toNat))) := by
  rw [formatEvm_eq]
  exact if_pos (isEvm_iff.mp hrange)

/-- The checksum changes the case of letters and nothing else. -/
theorem map_toLower_checksum (hash : Hash) (width m : ℕ) :
    (checksum hash (hexFixed width m)).map Char.toLower = hexFixed width m := by
  apply List.ext_getElem
  · rw [List.length_map, checksum, List.length_mapIdx]
  · intro i _ hi
    obtain ⟨d, hd, hdigit⟩ := exists_of_mem_hexFixed (List.getElem_mem hi)
    simp only [List.getElem_map, checksum, List.getElem_mapIdx, checksumDigit, hdigit]
    split
    · exact toLower_toUpper_hexDigit hd
    · exact toLower_hexDigit hd

theorem positional?_of_toLower {digits : List Char} {width m : ℕ} (hwidth : width ≠ 0)
    (hlower : digits.map Char.toLower = hexFixed width m) :
    positional? 16 hexValue? digits = some (m % 16 ^ width) := by
  rw [← positional?_map_toLower, hlower, positional?_hexFixed hwidth]

/-- The digits of an EVM address are read as the address, in whatever case their letters stand. -/
theorem parseNative_of_toLower (hrange : IsEvm e) {digits : List Char}
    (hlower : digits.map Char.toLower = hexFixed 40 e.toNat) :
    parseNative (String.ofList ('0' :: 'x' :: digits)) = .ok e := by
  have hupper : e < 2 ^ 160 := (isEvm_iff.mp hrange).2
  have hdigits : positional? 16 hexValue? digits = some e.toNat := by
    rw [positional?_of_toLower (by decide) hlower, Nat.mod_eq_of_lt (by omega)]
  have hread := parseNative_hex hdigits (by omega)
  rwa [Int.toNat_of_nonneg hrange.1] at hread

/-- A native address is written in 64 digits, which are read as the address. -/
theorem parseNative_formatNative (hrange : IsNative n) :
    ∃ text, formatNative n = .ok text ∧ parseNative text = .ok n := by
  have hupper : n < 2 ^ 251 - 256 := (isNative_iff.mp hrange).2
  have hdigits : positional? 16 hexValue? (hexFixed 64 n.toNat) = some n.toNat := by
    rw [positional?_hexFixed (by decide), Nat.mod_eq_of_lt (by omega)]
  have hread := parseNative_hex hdigits (by omega)
  rw [Int.toNat_of_nonneg hrange.1] at hread
  exact ⟨_, by rw [formatNative_eq, if_pos ⟨hrange.1, by omega⟩], hread⟩

/-! ## Both forms -/

/-- What is written for an address is read as the address: so different addresses are written
differently, and what is read is written as it was.  The integers that have a written form are those
from zero to a bound. -/
structure ReadBack (format : ℤ → Except Fault String) (address : ℤ → Prop) (bound : ℤ) : Prop where
  reads : ∀ a, address a → ∃ text, format a = .ok text ∧ parseNative text = .ok a
  differs : ∀ a other text, address a → address other →
    format a = .ok text → format other = .ok text → a = other
  again : ∀ a text, address a → format a = .ok text →
    ∃ m, parseNative text = .ok m ∧ format m = .ok text
  fails : ∀ value, (∃ fault, format value = .error fault) ↔ ¬(0 ≤ value ∧ value < bound)

theorem ReadBack.of_reads {format : ℤ → Except Fault String} {address : ℤ → Prop} {bound : ℤ}
    (hreads : ∀ a, address a → ∃ text, format a = .ok text ∧ parseNative text = .ok a)
    (hfails : ∀ value, (∃ fault, format value = .error fault) ↔ ¬(0 ≤ value ∧ value < bound)) :
    ReadBack format address bound := by
  have hread {a : ℤ} {text : String} (haddress : address a) (hformat : format a = .ok text) :
      parseNative text = .ok a := by
    obtain ⟨written, hwritten, hparse⟩ := hreads a haddress
    cases hformat.symm.trans hwritten
    exact hparse
  refine ⟨hreads, fun a other text ha hother hformat hsame => ?_, fun a text ha hformat => ?_,
    hfails⟩
  · exact Except.ok.inj ((hread ha hformat).symm.trans (hread hother hsame))
  · exact ⟨a, hread ha hformat, hformat⟩

theorem exists_error_iff {α : Type} {condition : Prop} [Decidable condition] {result : α}
    {fault : Fault} :
    (∃ found, (if condition then Except.ok result else .error fault) = .error found) ↔
      ¬condition := by
  split
  · rename_i hholds
    exact iff_of_false nofun (not_not_intro hholds)
  · rename_i hfails
    exact iff_of_true ⟨fault, rfl⟩ hfails

theorem formatNative_readBack : ReadBack formatNative IsNative (2 ^ 256) := by
  refine .of_reads (fun n hrange => parseNative_formatNative hrange) fun value => ?_
  rw [formatNative_eq]
  exact exists_error_iff

theorem formatEvm_readBack (hash : Hash) : ReadBack (formatEvm hash) IsEvm (2 ^ 160) := by
  refine .of_reads (fun e hrange => ⟨_, formatEvm_of_isEvm hash hrange, ?_⟩) fun value => ?_
  · exact parseNative_of_toLower hrange (map_toLower_checksum hash 40 e.toNat)
  · rw [formatEvm_eq]
    exact exists_error_iff

/-- What is written for a native address and for an EVM address is read as the address.  An EVM
address is written in 40 hexadecimal digits, which are its own apart from the case of their letters;
the case is what the checksum makes of these digits, and the reader passes over it. -/
theorem addresses_are_read_as_written (hash : Hash) :
    ReadBack formatNative IsNative (2 ^ 256) ∧
    ReadBack (formatEvm hash) IsEvm (2 ^ 160) ∧
    ∀ e, IsEvm e → ∃ digits : List Char,
      formatEvm hash e = .ok (String.ofList ('0' :: 'x' :: digits)) ∧
      digits.length = 40 ∧ (∀ c ∈ digits, (hexValue? c).isSome) ∧
      (∀ i < 40, (digits.map Char.toLower)[i]? =
        some (hexDigit (e.toNat / 16 ^ (39 - i) % 16))) ∧
      digits = checksum hash (digits.map Char.toLower) ∧
      ∀ recased : List Char, recased.map Char.toLower = digits.map Char.toLower →
        parseNative (String.ofList ('0' :: 'x' :: recased)) = .ok e := by
  refine ⟨formatNative_readBack, formatEvm_readBack hash, fun e hrange => ?_⟩
  have hlower := map_toLower_checksum hash 40 e.toNat
  refine ⟨_, formatEvm_of_isEvm hash hrange, ?_, fun c hmem => ?_, fun i hi => ?_, by rw [hlower],
    fun recased hrecased => parseNative_of_toLower hrange (hrecased.trans hlower)⟩
  · rw [← List.length_map Char.toLower, hlower, hexFixed_length]
  · -- a letter of either case is a digit, as its lower case is one
    have hmem := List.mem_map_of_mem (f := Char.toLower) hmem
    rw [hlower] at hmem
    obtain ⟨d, hd, hdigit⟩ := exists_of_mem_hexFixed hmem
    rw [← hexValue?_toLower, hdigit, hexValue?_hexDigit hd]
    rfl
  · rw [hlower, getElem?_hexFixed hi]

/-- Under a hash that gives its message back some letters are capitals; the address is read from
them, and also when their case is turned. -/
theorem addresses_are_read_as_written_in_any_case :
    let hash : Hash := Word.ofBytes
    let e : ℤ := 0x0a0b0c0d8989898900000000000000000000000f
    formatEvm hash e = .ok "0x0A0B0C0D8989898900000000000000000000000f" ∧
      parseNative "0x0A0B0C0D8989898900000000000000000000000f" = .ok e ∧
      parseNative "0x0a0b0c0d8989898900000000000000000000000F" = .ok e := by
  intro hash e
  have hrange : IsEvm e := by decide
  have hwritten : formatEvm hash e = .ok "0x0A0B0C0D8989898900000000000000000000000f" :=
    except_eq_ok_of_toOption (by decide +kernel)
  obtain ⟨-, hevm, hdigits⟩ := addresses_are_read_as_written hash
  refine ⟨hwritten, ?_, ?_⟩
  · obtain ⟨text, hformat, hparse⟩ := hevm.reads e hrange
    cases hwritten.symm.trans hformat
    exact hparse
  · obtain ⟨digits, hformat, -, -, -, -, hrecased⟩ := hdigits e hrange
    have hlist : '0' :: 'x' :: digits = "0x0A0B0C0D8989898900000000000000000000000f".toList := by
      rw [← Except.ok.inj (hformat.symm.trans hwritten), String.toList_ofList]
    obtain rfl : digits = "0A0B0C0D8989898900000000000000000000000f".toList :=
      List.cons.inj (List.cons.inj hlist).2 |>.2
    exact hrecased "0a0b0c0d8989898900000000000000000000000F".toList (by decide +kernel)

end Address

end AccountRegistry
