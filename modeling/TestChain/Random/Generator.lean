import TestChain.Bytes
import TestChain.Random.ChaCha

/-!
# The random generator

A `Generator` is a key and a position in its ChaCha12 stream; every draw takes the next words of the
stream. `ofSeed` spreads a 64-bit seed over the key. Byte strings take whole words, and what is left
of the last one is dropped; numbers from a range are drawn by multiplication with rejection.
-/

namespace TestChain

/-- A random generator: the words of its stream before `position` are used up. -/
structure Generator where
  /-- The key of the stream. -/
  key : ChaCha.Key
  /-- The number of words drawn. -/
  position : Nat
  deriving DecidableEq, Repr

namespace Generator

/-- The next state of the sequence that spreads a seed. -/
def nextSpread (state : UInt64) : UInt64 :=
  state * 6364136223846793005 + 11634580027462260723

/-- The word that a state of that sequence gives. -/
def spreadWord (state : UInt64) : UInt32 :=
  let x := (((state >>> 18) ^^^ state) >>> 27).toUInt32
  let count := (state >>> 59).toUInt32
  if count = 0 then x else (x >>> count) ||| (x <<< (32 - count))

/-- The first `count` words that a state gives. -/
def spread : Nat → UInt64 → List UInt32
  | 0, _ => []
  | count + 1, state => spreadWord (nextSpread state) :: spread count (nextSpread state)

/-- `spread` gives as many words as it is asked for. -/
theorem length_spread (count : Nat) (state : UInt64) : (spread count state).length = count := by
  induction count generalizing state with
  | zero => rfl
  | succ count ih => simp [spread, ih]

/-- The generator of a seed. -/
def ofSeed (seed : UInt64) : Generator :=
  ⟨⟨(spread 8 seed).toArray, by simp [length_spread]⟩, 0⟩

/-- The next 32 bits. -/
def next32 (g : Generator) : UInt32 × Generator :=
  (ChaCha.word g.key g.position, ⟨g.key, g.position + 1⟩)

/-- The next 64 bits, the low half first. -/
def next64 (g : Generator) : UInt64 × Generator :=
  let (low, g) := g.next32
  let (high, g) := g.next32
  (low.toUInt64 ||| (high.toUInt64 <<< 32), g)

/-- The next `count` words. -/
def words : Nat → Generator → List UInt32 × Generator
  | 0, g => ([], g)
  | count + 1, g =>
    let (first, g) := g.next32
    let (rest, g) := words count g
    (first :: rest, g)

/-- `words` gives as many words as it is asked for. -/
theorem length_words (count : Nat) (g : Generator) : (words count g).1.length = count := by
  induction count generalizing g with
  | zero => rfl
  | succ count ih => simp [words, ih]

/-- The bytes of some words, the lowest first. -/
def wordBytes (words : List UInt32) : Bytes :=
  words.flatMap fun word => Bytes.littleEndian 4 word.toNat

/-- A word has four bytes. -/
theorem length_wordBytes (words : List UInt32) : (wordBytes words).length = 4 * words.length := by
  induction words with
  | nil => rfl
  | cons word rest ih =>
    simp only [wordBytes, List.flatMap_cons, List.length_append, Bytes.length_littleEndian,
      List.length_cons] at *
    omega

/-- The next `count` bytes. -/
def bytes (count : Nat) (g : Generator) : Bytes × Generator :=
  let (ws, g) := words ((count + 3) / 4) g
  ((wordBytes ws).take count, g)

/-- The next 32 bytes. -/
def bytes32 (g : Generator) : Vector UInt8 32 × Generator :=
  (⟨(wordBytes (words 8 g).1).toArray, by simp [length_wordBytes, length_words]⟩, (words 8 g).2)

/-- The next eight bits. -/
def next8 (g : Generator) : UInt8 × Generator :=
  let (x, g) := g.next32
  (x.toUInt8, g)

/-- The next truth value: the highest of the next 32 bits. -/
def nextBool (g : Generator) : Bool × Generator :=
  let (x, g) := g.next32
  (x >>> 31 = 1, g)

/-- The next signed number of 64 bits. -/
def nextInt64 (g : Generator) : Int64 × Generator :=
  let (x, g) := g.next64
  (x.toInt64, g)

/-- The largest low half that a draw of `bits` bits from `range` values accepts. -/
def acceptedLow (bits range : Nat) : Nat :=
  range * Nat.pow 2 (bits - 1 - range.log2) - 1

/-- Draws until the low half of a product is accepted, at most `attempts` times, and gives the high
half of the last product. At least half of all draws are accepted. -/
def drawBelow (bits range : Nat) (draw : Generator → Nat × Generator) :
    Nat → Generator → Nat × Generator
  | 0, g => (0, g)
  | attempts + 1, g =>
    let (v, g) := draw g
    let product := v * range
    if product % Nat.pow 2 bits ≤ acceptedLow bits range then (product / Nat.pow 2 bits, g)
    else drawBelow bits range draw attempts g

/-- The number of draws after which drawing from a range is given up. -/
def maxAttempts : Nat := 100000

/-- A number of 64 bits below `range`. -/
def below64 (range : Nat) (g : Generator) : Nat × Generator :=
  drawBelow 64 range (fun g => let (x, g) := g.next64; (x.toNat, g)) maxAttempts g

/-- A number of 32 bits below `range`. -/
def below32 (range : Nat) (g : Generator) : Nat × Generator :=
  drawBelow 32 range (fun g => let (x, g) := g.next32; (x.toNat, g)) maxAttempts g

/-- A number from `low` up to but not including `high`. -/
def range64 (low high : UInt64) (g : Generator) : UInt64 × Generator :=
  let (x, g) := below64 (high - low).toNat g
  (low + x.toUInt64, g)

/-- A number from `low` up to and including `high`. -/
def rangeInclusive64 (low high : UInt64) (g : Generator) : UInt64 × Generator :=
  let range := high - low + 1
  if range = 0 then g.next64
  else
    let (x, g) := below64 range.toNat g
    (low + x.toUInt64, g)

/-- A number of 32 bits from `low` up to but not including `high`. -/
def range32 (low high : UInt32) (g : Generator) : UInt32 × Generator :=
  let (x, g) := below32 (high - low).toNat g
  (low + x.toUInt32, g)

end Generator

end TestChain
