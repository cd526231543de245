import TestChain.Bytes

/-!
# SHA3-256

`Sha3.hash256` is the 32-byte SHA3-256 digest of a byte string: a sponge of rate 136 bytes around
the permutation `keccak` of 25 lanes of 64 bits. The lane at column `x` and row `y` has index `x + 5
y`.
-/

namespace TestChain.Sha3

/-- The 25 lanes of the state. -/
abbrev Lanes := Vector UInt64 25

/-- The constants that the rounds add to the first lane. -/
def roundConstants : List UInt64 :=
  [0x0000000000000001, 0x0000000000008082, 0x800000000000808A, 0x8000000080008000,
   0x000000000000808B, 0x0000000080000001, 0x8000000080008081, 0x8000000000008009,
   0x000000000000008A, 0x0000000000000088, 0x0000000080008009, 0x000000008000000A,
   0x000000008000808B, 0x800000000000008B, 0x8000000000008089, 0x8000000000008003,
   0x8000000000008002, 0x8000000000000080, 0x000000000000800A, 0x800000008000000A,
   0x8000000080008081, 0x8000000000008080, 0x0000000080000001, 0x8000000080008008]

/-- The distance by which each lane is rotated. -/
def rotations : Vector UInt64 25 :=
  #v[0, 1, 62, 28, 27, 36, 44, 6, 55, 20, 3, 10, 43, 25, 39, 41, 45, 15, 21, 8, 18, 2, 61, 56, 14]

/-- Rotation to the left. -/
def rotateLeft (x count : UInt64) : UInt64 :=
  if count = 0 then x else (x <<< count) ||| (x >>> (64 - count))

/-- The lane at a column and row, both taken modulo five. -/
def laneAt (s : Lanes) (x y : Nat) : UInt64 :=
  s[x % 5 + 5 * (y % 5)]

/-- The parity of a column. -/
def columnParity (s : Lanes) (x : Nat) : UInt64 :=
  laneAt s x 0 ^^^ laneAt s x 1 ^^^ laneAt s x 2 ^^^ laneAt s x 3 ^^^ laneAt s x 4

/-- Adds to each lane the parities of the two columns beside it. -/
def theta (s : Lanes) : Lanes :=
  let parity : Vector UInt64 5 := Vector.ofFn fun x => columnParity s x.val
  Vector.ofFn fun i : Fin 25 =>
    s[i] ^^^ parity[(i.val + 4) % 5] ^^^ rotateLeft parity[(i.val + 1) % 5] 1

/-- Rotates the lanes and moves them to their new places: the lane at `(x, y)` comes from
`(x + 3 y, x)`. -/
def rhoPi (s : Lanes) : Lanes :=
  Vector.ofFn fun i : Fin 25 =>
    let source := (i.val % 5 + 3 * (i.val / 5)) % 5 + 5 * (i.val % 5)
    rotateLeft s[source] rotations[source]

/-- Combines each lane with the two to its right. -/
def chi (s : Lanes) : Lanes :=
  Vector.ofFn fun i : Fin 25 =>
    let x := i.val % 5
    let y := i.val / 5
    s[i] ^^^ (~~~(laneAt s (x + 1) y) &&& laneAt s (x + 2) y)

/-- One round with its constant. -/
def round (s : Lanes) (constant : UInt64) : Lanes :=
  let s := chi (rhoPi (theta s))
  s.set 0 (s[0] ^^^ constant)

/-- The permutation: 24 rounds. -/
def keccak (s : Lanes) : Lanes :=
  roundConstants.foldl round s

/-- The bytes absorbed between two permutations. -/
def rate : Nat := 136

/-- A message with the padding that completes its last block. -/
def padded (message : Bytes) : Bytes :=
  let fill := rate - message.length % rate
  -- The first and the last byte of the padding are one where only one fits.
  if fill = 1 then message ++ [0x86]
  else message ++ 0x06 :: List.replicate (fill - 2) 0 ++ [0x80]

/-- The state after the bytes of one block are added to it. -/
def addBlock (s : Lanes) (block : Bytes) : Lanes :=
  Vector.ofFn fun i : Fin 25 =>
    s[i] ^^^ (Bytes.toNatLittleEndian ((block.drop (8 * i.val)).take 8)).toUInt64

/-- Absorbs `count` blocks. -/
def absorb : Nat → Lanes → Bytes → Lanes
  | 0, s, _ => s
  | count + 1, s, message =>
    absorb count (keccak (addBlock s (message.take rate))) (message.drop rate)

/-- The SHA3-256 digest of a byte string. -/
def hash256 (message : Bytes) : Vector UInt8 32 :=
  let input := padded message
  let s := absorb (input.length / rate) (Vector.replicate 25 0) input
  Vector.ofFn fun i : Fin 32 => (s[i.val / 8] >>> (8 * (i.val % 8)).toUInt64).toUInt8

end TestChain.Sha3
