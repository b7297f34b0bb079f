/-!
# AES-256

The block cipher with a key of 32 bytes: fourteen rounds on a block of 16 bytes.  A block is
written column by column; byte `4 * c + r` is the one in column `c` and row `r`.  The substitution
of a byte is not tabulated but computed: an inverse in the field of 256 elements, then a sum of
rotations.
-/

namespace AccountRegistry.Aes

/-- A block of 16 bytes. -/
abbrev Block := Vector UInt8 16

/-- Twice an element of the field of 256 elements. -/
def double (a : UInt8) : UInt8 :=
  (a <<< 1) ^^^ (if a &&& 0x80 = 0 then 0 else 0x1b)

/-- The product of two elements of the field, from the highest bit of the second one. -/
def product (a b : UInt8) : UInt8 :=
  [7, 6, 5, 4, 3, 2, 1, 0].foldl (fun sum bit =>
    double sum ^^^ (if (b >>> bit) &&& 1 = 0 then 0 else a)) 0

/-- The product of the powers `a ^ 2`, `a ^ 4`, …, of which there are `count`, and of `done`. -/
def squares : Nat → UInt8 → UInt8 → UInt8
  | 0, _, done => done
  | count + 1, a, done =>
      let square := product a a
      squares count square (product done square)

/-- The inverse of an element, its power of exponent 254; zero is its own. -/
def inverse (a : UInt8) : UInt8 :=
  squares 7 a 1

/-- Rotate a byte to the left. -/
def rotate (a n : UInt8) : UInt8 :=
  (a <<< n) ||| (a >>> (8 - n))

/-- The substitutes of all bytes. -/
def substitutes : Vector UInt8 256 :=
  Vector.ofFn fun i =>
    let b := inverse (UInt8.ofNat i.val)
    b ^^^ rotate b 1 ^^^ rotate b 2 ^^^ rotate b 3 ^^^ rotate b 4 ^^^ 0x63

/-- The substitute of a byte. -/
def substitute (a : UInt8) : UInt8 :=
  substitutes.get ⟨a.toNat, a.toNat_lt⟩

/-- Four bytes of a key. -/
abbrev Word := Vector UInt8 4

/-- The bytewise sum of two words. -/
def add (a b : Word) : Word :=
  Vector.ofFn fun i => a[i] ^^^ b[i]

/-- Each word added to the sum of those before it, from a given word on. -/
def sums : Word → List Word → List Word
  | _, [] => []
  | last, word :: rest => add last word :: sums (add last word) rest

/-- The next eight words of a key, after the eight that precede them. -/
def nextWords (constant : UInt8) (words : List Word) : List Word :=
  let last := words.getLast?.getD (Vector.replicate 4 0)
  let turned : Word := Vector.ofFn fun i =>
    substitute last[(i.val + 1) % 4] ^^^ (if i.val = 0 then constant else 0)
  let front := sums turned (words.take 4)
  let middle := (front.getLast?.getD (Vector.replicate 4 0)).map substitute
  front ++ sums middle (words.drop 4)

/-- The words of a key, eight for each constant. -/
def schedule : List UInt8 → List Word → List Word
  | [], words => words
  | constant :: rest, words => words ++ schedule rest (nextWords constant words)

/-- Cut a list into `count` parts of a given size. -/
def parts {α : Type} (size : Nat) : Nat → List α → List (List α)
  | 0, _ => []
  | count + 1, items => items.take size :: parts size count (items.drop size)

/-- A block of given bytes, filled up with zeros. -/
def blockOf (bytes : List UInt8) : Block :=
  Vector.ofFn fun i => bytes.getD i.val 0

/-- The keys of the rounds: the one that is added first, and fourteen more. -/
def roundKeys (key : List UInt8) : List Block :=
  let words := (parts 4 8 key).map fun bytes => (Vector.ofFn fun i => bytes.getD i.val 0 : Word)
  let all := schedule [0x01, 0x02, 0x04, 0x08, 0x10, 0x20, 0x40] words
  (parts 16 15 (all.flatMap Vector.toList)).map blockOf

/-- The bytewise sum of two blocks. -/
def addBlocks (a b : Block) : Block :=
  Vector.ofFn fun i => a[i] ^^^ b[i]

/-- Substitute every byte and rotate each row by its number. -/
def substituteRows (a : Block) : Block :=
  Vector.ofFn fun i => substitute a[(i.val + 4 * (i.val % 4)) % 16]

/-- The byte of a block in the column of a place, so many rows further down. -/
def below (a : Block) (place down : Nat) : UInt8 :=
  a[(place / 4 * 4 + (place + down) % 4) % 16]

/-- Mix the bytes of each column. -/
def mixColumns (a : Block) : Block :=
  Vector.ofFn fun i =>
    double (below a i 0) ^^^ double (below a i 1) ^^^ below a i 1 ^^^ below a i 2 ^^^ below a i 3

/-- The rounds with their keys; the last one mixes no columns. -/
def rounds : List Block → Block → Block
  | [], block => block
  | [key], block => addBlocks (substituteRows block) key
  | key :: next :: rest, block =>
      rounds (next :: rest) (addBlocks (mixColumns (substituteRows block)) key)

/-- A block under the keys of the rounds. -/
def encrypt (keys : List Block) (block : Block) : Block :=
  match keys with
  | [] => block
  | first :: rest => rounds rest (addBlocks block first)

end AccountRegistry.Aes
