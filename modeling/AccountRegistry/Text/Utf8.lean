import AccountRegistry.Text.Units

/-!
# Lenient UTF-8

Bytes read as UTF-8 text.  Where the bytes leave the encoding, each maximal run that starts like
a character becomes one replacement character, and so does every byte that starts none.
-/

namespace AccountRegistry.Utf8

/-- What a first byte announces: its payload, how many bytes follow, and the least and greatest
value of the first of them. -/
structure Lead where
  payload : Nat
  count : Nat
  low : Nat
  high : Nat

/-- The announcement of a first byte above the ASCII range. -/
def lead? (b : Nat) : Option Lead :=
  if 0xc2 ≤ b ∧ b ≤ 0xdf then some ⟨b - 0xc0, 1, 0x80, 0xbf⟩
  else if b = 0xe0 then some ⟨0, 2, 0xa0, 0xbf⟩
  else if b = 0xed then some ⟨0xd, 2, 0x80, 0x9f⟩
  else if 0xe1 ≤ b ∧ b ≤ 0xef then some ⟨b - 0xe0, 2, 0x80, 0xbf⟩
  else if b = 0xf0 then some ⟨0, 3, 0x90, 0xbf⟩
  else if 0xf1 ≤ b ∧ b ≤ 0xf3 then some ⟨b - 0xf0, 3, 0x80, 0xbf⟩
  else if b = 0xf4 then some ⟨4, 3, 0x80, 0x8f⟩
  else none

/-- Decode with the state of the character in progress: its lead, whose `count` is what is still
owed and whose `payload` is what has been read. -/
def decodeFrom : Option Lead → List UInt8 → List Char
  | none, [] => []
  | some _, [] => [Units.replacement]
  | none, b :: rest =>
      if b.toNat < 0x80 then Char.ofNat b.toNat :: decodeFrom none rest
      else match lead? b.toNat with
        | some lead => decodeFrom (some lead) rest
        | none => Units.replacement :: decodeFrom none rest
  | some lead, b :: rest =>
      if lead.low ≤ b.toNat ∧ b.toNat ≤ lead.high then
        let payload := lead.payload * 64 + (b.toNat - 0x80)
        if lead.count ≤ 1 then Char.ofNat payload :: decodeFrom none rest
        else decodeFrom (some ⟨payload, lead.count - 1, 0x80, 0xbf⟩) rest
      else if b.toNat < 0x80 then
        Units.replacement :: Char.ofNat b.toNat :: decodeFrom none rest
      else match lead? b.toNat with
        | some next => Units.replacement :: decodeFrom (some next) rest
        | none => Units.replacement :: Units.replacement :: decodeFrom none rest

/-- The text of a file's bytes. -/
def decode (bytes : List UInt8) : String :=
  Units.keep (String.ofList (decodeFrom none bytes))

end AccountRegistry.Utf8
