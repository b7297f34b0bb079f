import AccountRegistry.Word

/-!
# Keccak-256

The hash of the host ledger: the sponge over the 1600-bit Keccak permutation with a rate of 136
bytes and the padding that starts with a one bit and ends with a one bit.  The state is 25 lanes
of 64 bits; lane `x + 5 * y` is the one in column `x` and row `y`.
-/

namespace AccountRegistry.Keccak

/-- The lanes of the permutation. -/
abbrev Lanes := Vector UInt64 25

/-- The lane in a column and a row, both taken modulo five. -/
def lane (a : Lanes) (x y : Nat) : UInt64 :=
  a[x % 5 + 5 * (y % 5)]

/-- Rotate a lane to the left. -/
def rotate (v : UInt64) (n : UInt64) : UInt64 :=
  (v <<< n) ||| (v >>> (64 - n))

/-- How far each lane is rotated. -/
def offsets : Vector UInt64 25 :=
  #v[0, 1, 62, 28, 27, 36, 44, 6, 55, 20, 3, 10, 43, 25, 39, 41, 45, 15, 21, 8, 18, 2, 61, 56, 14]

/-- What each round adds to the first lane. -/
def roundConstants : List UInt64 :=
  [0x0000000000000001, 0x0000000000008082, 0x800000000000808a, 0x8000000080008000,
   0x000000000000808b, 0x0000000080000001, 0x8000000080008081, 0x8000000000008009,
   0x000000000000008a, 0x0000000000000088, 0x0000000080008009, 0x000000008000000a,
   0x000000008000808b, 0x800000000000008b, 0x8000000000008089, 0x8000000000008003,
   0x8000000000008002, 0x8000000000000080, 0x000000000000800a, 0x800000008000000a,
   0x8000000080008081, 0x8000000000008080, 0x0000000080000001, 0x8000000080008008]

/-- The parity of a column. -/
def parity (a : Lanes) (x : Nat) : UInt64 :=
  lane a x 0 ^^^ lane a x 1 ^^^ lane a x 2 ^^^ lane a x 3 ^^^ lane a x 4

/-- Add to each lane the parities of the two neighbouring columns. -/
def theta (a : Lanes) : Lanes :=
  let parities : Vector UInt64 5 := Vector.ofFn fun x => parity a x.val
  let sums : Vector UInt64 5 := Vector.ofFn fun x =>
    parities[(x.val + 4) % 5] ^^^ rotate parities[(x.val + 1) % 5] 1
  Vector.ofFn fun i => a[i] ^^^ sums[i.val % 5]

/-- Rotate the lanes and move each to its new place. -/
def rhoPi (a : Lanes) : Lanes :=
  Vector.ofFn fun i =>
    let x := i.val % 5
    let y := i.val / 5
    rotate (lane a (x + 3 * y) x) (lane offsets (x + 3 * y) x)

/-- Combine each lane with the next two of its row. -/
def chi (a : Lanes) : Lanes :=
  Vector.ofFn fun i =>
    let x := i.val % 5
    let y := i.val / 5
    a[i] ^^^ (~~~(lane a (x + 1) y) &&& lane a (x + 2) y)

/-- One round. -/
def round (a : Lanes) (constant : UInt64) : Lanes :=
  let b := chi (rhoPi (theta a))
  b.set 0 (b[0] ^^^ constant)

/-- The permutation. -/
def permute (a : Lanes) : Lanes :=
  roundConstants.foldl round a

/-- The bytes that a block holds. -/
def rate : Nat := 136

/-- What is appended to a message to fill its last block. -/
def padding (length : Nat) : List UInt8 :=
  let count := rate - length % rate
  if count = 1 then [0x81] else 0x01 :: List.replicate (count - 2) 0 ++ [0x80]

/-- Eight bytes as a lane, the least significant first. -/
def laneOfBytes (bytes : List UInt8) : UInt64 :=
  bytes.foldr (fun byte value => (value <<< 8) ||| byte.toUInt64) 0

/-- A lane as eight bytes, the least significant first. -/
def bytesOfLane (v : UInt64) : List UInt8 :=
  (List.range 8).map fun i => (v >>> (8 * i).toUInt64).toUInt8

/-- Cut a list into `count` parts of a given size. -/
def chunks {α : Type} (size : Nat) : Nat → List α → List (List α)
  | 0, _ => []
  | count + 1, items => items.take size :: chunks size count (items.drop size)

/-- Add a block to the state and permute it. -/
def absorb (a : Lanes) (block : List UInt8) : Lanes :=
  let words := ((chunks 8 17 block).map laneOfBytes).toArray
  permute (Vector.ofFn fun i => a[i] ^^^ words.getD i.val 0)

/-- The digest of a byte string. -/
def hash : Hash := fun message =>
  let padded := message ++ padding message.length
  let blocks := chunks rate (padded.length / rate) padded
  let final := blocks.foldl absorb (Vector.replicate 25 0)
  Word.ofBytes ((List.range 4).flatMap fun x => bytesOfLane (lane final x 0))

end AccountRegistry.Keccak
