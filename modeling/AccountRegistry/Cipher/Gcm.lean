import AccountRegistry.Cipher.Aes

/-!
# Sealed data

Galois/Counter Mode over AES-256: data is encrypted by adding the ciphers of successive counters,
and sealed by a tag that is a polynomial of the encrypted data at a point that the key gives.
`opened?` gives the data back if the tag is right.
-/

namespace AccountRegistry.Gcm

open Aes

/-- Bytes as a number, the most significant first. -/
def number (bytes : List UInt8) : Nat :=
  bytes.foldl (fun value byte => value * 256 + byte.toNat) 0

/-- A number as bytes, `count` of them, the most significant first. -/
def bytesOf : Nat → Nat → List UInt8
  | 0, _ => []
  | count + 1, n => bytesOf count (n / 256) ++ [UInt8.ofNat (n % 256)]

/-- An element of the field of 128 bits times the element of degree one; the highest bit is the
coefficient of degree zero. -/
def shift (a : Nat) : Nat :=
  (a >>> 1) ^^^ (if a % 2 = 0 then 0 else 0xe1000000000000000000000000000000)

/-- The product of two elements, over the lower `bits` bits of the first one and added to `sum`;
`b` is the second one times the element of the degree of the highest of those bits. -/
def productFrom (a : Nat) : Nat → Nat → Nat → Nat
  | 0, _, sum => sum
  | bits + 1, b, sum => productFrom a bits (shift b) (if a.testBit bits then sum ^^^ b else sum)

/-- The product of two elements of the field of 128 bits. -/
def product (a b : Nat) : Nat :=
  productFrom a 128 b 0

/-- Bytes as blocks, the last of which is filled up with zeros. -/
def blocks (bytes : List UInt8) : List Block :=
  (parts 16 ((bytes.length + 15) / 16) bytes).map blockOf

/-- The polynomial of some blocks at a point. -/
def evaluate (point : Nat) (values : List Nat) : Nat :=
  values.foldl (fun sum value => product (sum ^^^ value) point) 0

/-- The block of a counter, whose last four bytes count. -/
def counterBlock (start count : Nat) : Block :=
  let wrap := 0x100000000
  blockOf (bytesOf 16 (start / wrap * wrap + (start + count) % wrap))

/-- Data with the ciphers of the counters that follow `start` added, block by block. -/
def crypt (keys : List Block) (start : Nat) : Nat → List (List UInt8) → List UInt8
  | _, [] => []
  | count, part :: rest =>
      List.zipWith (· ^^^ ·) part (encrypt keys (counterBlock start count)).toList ++
        crypt keys start (count + 1) rest

/-- The first counter of a nonce. -/
def startOf (point : Nat) (nonce : List UInt8) : Nat :=
  if nonce.length = 12 then number nonce * 0x100000000 + 1
  else evaluate point ((blocks nonce).map (fun block => number block.toList) ++ [8 * nonce.length])

/-- The whole tag of encrypted data. -/
def tagOf (keys : List Block) (point start : Nat) (sealed : List UInt8) : List UInt8 :=
  let sum := evaluate point
    ((blocks sealed).map (fun block => number block.toList) ++ [8 * sealed.length])
  List.zipWith (· ^^^ ·) (bytesOf 16 sum) (encrypt keys (counterBlock start 0)).toList

/-- The data that was sealed under a key and a nonce; none if the tag is not the beginning of the
right one. -/
def opened? (key nonce sealed tag : List UInt8) : Option (List UInt8) :=
  let keys := roundKeys key
  let point := number (encrypt keys (blockOf [])).toList
  let start := startOf point nonce
  if tag.isPrefixOf (tagOf keys point start sealed) then
    some (crypt keys start 1 (parts 16 ((sealed.length + 15) / 16) sealed))
  else none

end AccountRegistry.Gcm
