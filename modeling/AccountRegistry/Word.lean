import AccountRegistry.Text.Digits

/-!
# Words

A word is a 256-bit value: the element of every hashed list, and what a digest is.  `bytes` is
its encoding, 32 bytes with the most significant first; `ofBytes` reads bytes back.
-/

namespace AccountRegistry

/-- A 256-bit value. -/
abbrev Word := BitVec 256

/-- A function from byte strings to digests. -/
abbrev Hash := List UInt8 → Word

namespace Word

/-- The bound that every value of a word is below, `2 ^ 256`. -/
def upperBound : Int :=
  0x10000000000000000000000000000000000000000000000000000000000000000

/-- The word of an integer, if it fits in one. -/
def ofInt? (value : Int) : Option Word :=
  if 0 ≤ value ∧ value < upperBound then some (BitVec.ofNat 256 value.toNat) else none

/-- The last `width` bytes of a number, the most significant first. -/
def bytesOfNat : Nat → Nat → List UInt8
  | 0, _ => []
  | width + 1, n => bytesOfNat width (n / 256) ++ [UInt8.ofNat (n % 256)]

theorem bytesOfNat_length (width n : Nat) : (bytesOfNat width n).length = width := by
  induction width generalizing n with
  | zero => rfl
  | succ width ih => simp [bytesOfNat, ih]

/-- The number that bytes write, the most significant first. -/
def natOfBytes (bytes : List UInt8) : Nat :=
  bytes.foldl (fun value byte => value * 256 + byte.toNat) 0

/-- The encoding of a word in 32 bytes. -/
def bytes (word : Word) : List UInt8 :=
  bytesOfNat 32 word.toNat

theorem bytes_length (word : Word) : word.bytes.length = 32 :=
  bytesOfNat_length 32 word.toNat

/-- The word that bytes write. -/
def ofBytes (bytes : List UInt8) : Word :=
  BitVec.ofNat 256 (natOfBytes bytes)

/-- The text of a word: `0x` and 64 hexadecimal digits. -/
def hex (word : Word) : String :=
  Digits.hexPadded 64 word.toNat

/-- The value of one of the 64 hexadecimal digits of a word, counted from the left. -/
def nibble (word : Word) (i : Nat) : Nat :=
  word.toNat / Nat.pow 16 (63 - i) % 16

end Word

end AccountRegistry
