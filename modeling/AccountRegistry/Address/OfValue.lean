import AccountRegistry.Address
import AccountRegistry.Value

/-!
# Native addresses from values

A native address that is given as a value of any kind: an integer, a numeral, or a value whose
plain text is a numeral.
-/

namespace AccountRegistry.Address

/-- The integer that a value with the text of a numeral gives.  A number gives itself, since its
text may be rounded. -/
def integerOf (value : Value) (written : Nat) : Int :=
  match value with
  | .number x => x.toInt?.getD written
  | _ => written

/-- A value as a native address. -/
def ofValue : Value → Except Fault Int
  | .text text => parseNative text
  | .integer n => native n
  | value =>
      if value.hasText then
        match Numeral.ofText? value.plainText with
        | some written => native (integerOf value written)
        | none => .error (.refusal .invalidNativeAddress [("value", value)])
      else .error .textless

end AccountRegistry.Address
