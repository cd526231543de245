/-!
# Grids of words

A `Grid` is sixteen words of 32 bits in four rows of four. `Grid.mix` mixes its columns one after
another and then its diagonals; this is one round of BLAKE3 and two of ChaCha.
-/

namespace TestChain

/-- Sixteen words, row by row. -/
abbrev Grid := Vector UInt32 16

namespace Grid

/-- The words of a column or diagonal, from the first row to the last. -/
structure Line where
  /-- The word in the first row. -/
  a : UInt32
  /-- The word in the second row. -/
  b : UInt32
  /-- The word in the third row. -/
  c : UInt32
  /-- The word in the last row. -/
  d : UInt32

/-- Mixes the words at four places. -/
@[inline]
def mixAt (s : Grid) (i j k l : Fin 16) (f : Line → Line) : Grid :=
  let r := f ⟨s[i], s[j], s[k], s[l]⟩
  (((s.set i r.a).set j r.b).set k r.c).set l r.d

/-- Mixes the columns and then the diagonals, which are numbered in this order. -/
@[inline]
def mix (f : Fin 8 → Line → Line) (s : Grid) : Grid :=
  let s := s.mixAt 0 4 8 12 (f 0)
  let s := s.mixAt 1 5 9 13 (f 1)
  let s := s.mixAt 2 6 10 14 (f 2)
  let s := s.mixAt 3 7 11 15 (f 3)
  let s := s.mixAt 0 5 10 15 (f 4)
  let s := s.mixAt 1 6 11 12 (f 5)
  let s := s.mixAt 2 7 8 13 (f 6)
  s.mixAt 3 4 9 14 (f 7)

end Grid

end TestChain
