import TestChain.Digest.Grid

/-!
# The ChaCha12 stream

`ChaCha.word key n` is word `n` of the stream of a key: the blocks of sixteen words follow each
other in the order of a 64-bit counter that starts at zero, on stream zero, with twelve rounds a
block.
-/

namespace TestChain.ChaCha

/-- The key words of a stream. -/
abbrev Key := Vector UInt32 8

/-- Rotation to the left. -/
@[inline]
def rotateLeft (x count : UInt32) : UInt32 :=
  (x <<< count) ||| (x >>> (32 - count))

/-- The quarter round on a column or diagonal. -/
@[inline]
def quarter (r : Grid.Line) : Grid.Line :=
  let a := r.a + r.b
  let d := rotateLeft (r.d ^^^ a) 16
  let c := r.c + d
  let b := rotateLeft (r.b ^^^ c) 12
  let a := a + b
  let d := rotateLeft (d ^^^ a) 8
  let c := c + d
  ⟨a, rotateLeft (b ^^^ c) 7, c, d⟩

/-- Two rounds: one on the columns and one on the diagonals. -/
def doubleRound (s : Grid) : Grid :=
  s.mix fun _ => quarter

/-- The words in the first row before the rounds. -/
def constants : Vector UInt32 4 :=
  #v[0x61707865, 0x3320646E, 0x79622D32, 0x6B206574]

/-- The state before the rounds. -/
def start (key : Key) (counter : UInt64) : Grid :=
  constants ++ key ++ #v[counter.toUInt32, (counter >>> 32).toUInt32, 0, 0]

/-- The block with the given number. -/
def block (key : Key) (counter : UInt64) : Grid :=
  let s := start key counter
  let t := doubleRound (doubleRound (doubleRound (doubleRound (doubleRound (doubleRound s)))))
  s.zipWith (· + ·) t

/-- The word with the given number. -/
def word (key : Key) (n : Nat) : UInt32 :=
  (block key (n / 16).toUInt64)[n % 16]

end TestChain.ChaCha
