import AccountRegistry.Fault
import AccountRegistry.Text.Numeral
import AccountRegistry.Word

/-!
# Addresses

EVM addresses are 160-bit unsigned integers; native addresses are the integers below
`2 ^ 251 - 256` that the host ledger uses; class references are the non-zero elements of its
field.  All three are plain integers with a range.  A native address is read from a numeral and
written as a word; an EVM address is written with a checksum in the case of its letters.
-/

namespace AccountRegistry.Address

/-- The bound that every EVM address is below, `2 ^ 160`. -/
def evmUpperBound : Int :=
  0x10000000000000000000000000000000000000000

/-- The bound that every native address is below, `2 ^ 251 - 256`. -/
def nativeUpperBound : Int :=
  0x7ffffffffffffffffffffffffffffffffffffffffffffffffffffffffffff00

/-- The prime of the host ledger's field, `2 ^ 251 + 17 * 2 ^ 192 + 1`. -/
def fieldPrime : Int :=
  0x800000000000011000000000000000000000000000000000000000000000001

/-- Being a 160-bit unsigned integer. -/
def IsEvm (value : Int) : Prop := 0 ≤ value ∧ value < evmUpperBound

/-- Being a host-ledger address. -/
def IsNative (value : Int) : Prop := 0 ≤ value ∧ value < nativeUpperBound

/-- Being a non-zero field element. -/
def IsClassReference (value : Int) : Prop := 0 < value ∧ value < fieldPrime

instance : DecidablePred IsEvm := fun _ => inferInstanceAs (Decidable (_ ∧ _))

instance : DecidablePred IsNative := fun _ => inferInstanceAs (Decidable (_ ∧ _))

instance : DecidablePred IsClassReference := fun _ => inferInstanceAs (Decidable (_ ∧ _))

/-- An integer as a native address. -/
def native (value : Int) : Except Fault Int :=
  if IsNative value then .ok value
  else .error (.refusal .invalidNativeAddress [("value", .text (Digits.decimal value))])

/-- A numeral as a native address. -/
def parseNative (text : String) : Except Fault Int :=
  match Numeral.ofText? text with
  | some n => native n
  | none => .error (.refusal .invalidNativeAddress [("value", .text text)])

/-- A native address as `0x` and 64 hexadecimal digits. -/
def formatNative (value : Int) : Except Fault String :=
  match Word.ofInt? value with
  | some word => .ok word.hex
  | none => .error (.unsignedRange value 256)

/-- A letter in upper case where the digest of the digits has a digit of eight or more at its
place. -/
def checksumDigit (digest : Word) (i : Nat) (c : Char) : Char :=
  if 8 ≤ digest.nibble i then c.toUpper else c

/-- The digits of an address with its checksum. -/
def checksum (hash : Hash) (digits : List Char) : List Char :=
  let digest := hash (digits.map fun c => UInt8.ofNat c.toNat)
  digits.mapIdx (checksumDigit digest)

/-- An EVM address as `0x` and 40 hexadecimal digits with its checksum. -/
def formatEvm (hash : Hash) (value : Int) : Except Fault String :=
  if IsEvm value then
    .ok ("0x" ++ String.ofList (checksum hash (Digits.hexFixed 40 value.toNat)))
  else .error (.unsignedRange value 160)

end AccountRegistry.Address
