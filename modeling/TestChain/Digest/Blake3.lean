import TestChain.Bytes
import TestChain.Digest.Grid

/-!
# BLAKE3

`Blake3.hash` is the 32-byte BLAKE3 digest of a byte string. The input is cut into chunks of 1024
bytes; a chunk is a chain of compressions over its blocks of 64 bytes, and the chunks are the leaves
of a binary tree whose left subtrees are as large a power of two as leaves something on the right. A
`Node` is a compression that is still to be made, because only the one at the root carries the root
flag.
-/

namespace TestChain.Blake3

/-- The initial chaining value. -/
def initial : Vector UInt32 8 :=
  #v[0x6A09E667, 0xBB67AE85, 0x3C6EF372, 0xA54FF53A, 0x510E527F, 0x9B05688C, 0x1F83D9AB, 0x5BE0CD19]

/-- The constants in the third row of the state, the first four words of the initial value. -/
def constants : Vector UInt32 4 :=
  #v[0x6A09E667, 0xBB67AE85, 0x3C6EF372, 0xA54FF53A]

/-- The order in which a round takes the words that the round before it took in order. -/
def schedule : Vector Nat 16 :=
  #v[2, 6, 3, 10, 7, 0, 4, 13, 1, 11, 12, 5, 9, 14, 15, 8]

/-- The flag of a chunk's first block. -/
def chunkStart : UInt32 := 1

/-- The flag of a chunk's last block. -/
def chunkEnd : UInt32 := 2

/-- The flag of an inner node of the tree. -/
def parentFlag : UInt32 := 4

/-- The flag of the root of the tree. -/
def rootFlag : UInt32 := 8

/-- The bytes in a block. -/
def blockSize : Nat := 64

/-- The bytes in a chunk. -/
def chunkSize : Nat := 1024

/-- Rotation to the right. -/
@[inline]
def rotateRight (x : UInt32) (count : UInt32) : UInt32 :=
  (x >>> count) ||| (x <<< (32 - count))

/-- Mixes two message words into a column or diagonal. -/
@[inline]
def quarter (x y : UInt32) (r : Grid.Line) : Grid.Line :=
  let a := r.a + r.b + x
  let d := rotateRight (r.d ^^^ a) 16
  let c := r.c + d
  let b := rotateRight (r.b ^^^ c) 12
  let a := a + b + y
  let d := rotateRight (d ^^^ a) 8
  let c := c + d
  ⟨a, rotateRight (b ^^^ c) 7, c, d⟩

/-- One round: each line of the state is mixed with the next two message words. -/
def round (s m : Grid) : Grid :=
  s.mix fun k => quarter m[2 * k.val] m[2 * k.val + 1]

/-- The given number of rounds, each on the message words in its own order. -/
def rounds : Nat → Grid → Grid → Grid
  | 0, s, _ => s
  | n + 1, s, m => rounds n (round s m) (schedule.map fun i => m.toArray.getD i 0)

/-- A compression: a chaining value and a block give the next chaining value. -/
def compress (value : Vector UInt32 8) (block : Grid) (counter : UInt64) (length flags : UInt32) :
    Vector UInt32 8 :=
  let last := #v[counter.toUInt32, (counter >>> 32).toUInt32, length, flags]
  let s : Grid := value ++ constants ++ last
  let s := rounds 7 s block
  Vector.ofFn fun i : Fin 8 => s[i.val] ^^^ s[i.val + 8]

/-- The byte at an index, zero past the end. -/
@[inline]
def byteAt (input : ByteArray) (index : Nat) : UInt8 :=
  if h : index < input.size then input[index] else 0

/-- The word whose lowest byte stands at an index. -/
@[inline]
def wordAt (input : ByteArray) (index : Nat) : UInt32 :=
  (byteAt input index).toUInt32 ||| ((byteAt input (index + 1)).toUInt32 <<< 8) |||
    ((byteAt input (index + 2)).toUInt32 <<< 16) ||| ((byteAt input (index + 3)).toUInt32 <<< 24)

/-- The block of at most `length` bytes that starts at an index, filled up with zeros. -/
def blockAt (input : ByteArray) (start length : Nat) : Grid :=
  if length < blockSize then
    let part := input.extract start (start + length)
    Vector.ofFn fun i : Fin 16 => wordAt part (4 * i.val)
  else
    Vector.ofFn fun i : Fin 16 => wordAt input (start + 4 * i.val)

/-- A compression that is still to be made. -/
structure Node where
  /-- The chaining value that goes in. -/
  value : Vector UInt32 8
  /-- The message words. -/
  block : Grid
  /-- The number of the chunk, zero for inner nodes. -/
  counter : UInt64
  /-- The number of message bytes in the block. -/
  length : UInt32
  /-- The flags, without the one for the root. -/
  flags : UInt32

/-- The chaining value of a node below the root. -/
def Node.chain (n : Node) : Vector UInt32 8 :=
  compress n.value n.block n.counter n.length n.flags

/-- The digest of the node at the root. -/
def Node.root (n : Node) : Vector UInt32 8 :=
  compress n.value n.block n.counter n.length (n.flags ||| rootFlag)

/-- The node of a chunk: all its blocks but the last are compressed. `blocks` counts the blocks
after the one at `start`, and `length` the bytes from there to the chunk's end. -/
def chunk (input : ByteArray) (counter : UInt64) :
    (blocks start length : Nat) → (value : Vector UInt32 8) → (flags : UInt32) → Node
  | 0, start, length, value, flags =>
    { value, block := blockAt input start length, counter, length := length.toUInt32,
      flags := flags ||| chunkEnd }
  | blocks + 1, start, length, value, flags =>
    let next := compress value (blockAt input start blockSize) counter blockSize.toUInt32 flags
    chunk input counter blocks (start + blockSize) (length - blockSize) next 0

/-- The node of the chunk with the given number. -/
def leaf (input : ByteArray) (index : Nat) : Node :=
  let start := index * chunkSize
  let length := min chunkSize (input.size - start)
  chunk input index.toUInt64 ((length - 1) / blockSize) start length initial chunkStart

/-- The node above two subtrees. -/
def parent (left right : Node) : Node :=
  { value := initial, block := left.chain ++ right.chain, counter := 0, length := 64,
    flags := parentFlag }

/-- The largest power of two below `n`, for `n` of at least two. -/
def leftSize (n : Nat) : Nat :=
  Nat.pow 2 (Nat.log2 (n - 1))

/-- The tree over `count` chunks from number `first` on. -/
def tree (input : ByteArray) (first count : Nat) : Node :=
  if h : 2 ≤ count then
    have hpos : 0 < leftSize count := Nat.pow_pos (by decide)
    have hlt : leftSize count < count := by
      have h : Nat.pow 2 (Nat.log2 (count - 1)) ≤ count - 1 := Nat.log2_self_le (by omega)
      unfold leftSize
      omega
    -- The left part is the largest power of two of leaves that leaves some for the right part.
    parent (tree input first (leftSize count))
      (tree input (first + leftSize count) (count - leftSize count))
  else leaf input first
termination_by count
decreasing_by
  · exact hlt
  · exact Nat.sub_lt (Nat.lt_of_lt_of_le Nat.two_pos h) hpos

/-- The digest of a packed byte string. -/
def hashPacked (input : ByteArray) : Vector UInt8 32 :=
  let words := (tree input 0 (max 1 ((input.size + chunkSize - 1) / chunkSize))).root
  Vector.ofFn fun i : Fin 32 =>
    (words[i.val / 4] >>> (8 * (i.val % 4)).toUInt32).toUInt8

/-- The digest of a byte string. -/
def hash (input : Bytes) : Vector UInt8 32 :=
  hashPacked input.pack

end TestChain.Blake3
