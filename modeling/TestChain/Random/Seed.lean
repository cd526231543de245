import TestChain.Random.Generator
import TestChain.Text.Blank
import TestChain.Text.Digits

/-!
# Seeded runs

A `SeededRng` is a random generator that remembers the seed it grew from, so that a run can be
repeated: `replayHint` writes the seed as an assignment to the variable that a later run reads, and
`parseSeed?` reads the value of that variable, in hexadecimal digits after `0x` or in decimal
digits. `ofVariable` is the generator with which a run begins.
-/

namespace TestChain

/-- The variable that holds the seed of a run to be repeated. -/
def seedVariable : String := "BLOCKSIM_TEST_SEED"

/-- Reads a seed, with white space around it or not. -/
def parseSeed? (value : String) : Option UInt64 :=
  let digits := match Text.trim value.toList with
    | '0' :: 'x' :: rest => Text.readBounded? 16 UInt64.size rest
    | '0' :: 'X' :: rest => Text.readBounded? 16 UInt64.size rest
    | s => Text.readBounded? 10 UInt64.size s
  digits.map UInt64.ofNat

/-- A random generator that remembers its seed. -/
structure SeededRng where
  /-- The seed it grew from. -/
  seed : UInt64
  /-- The generator, as far as it is used. -/
  generator : Generator
  deriving DecidableEq, Repr

namespace SeededRng

/-- The fresh generator of a seed. -/
def ofSeed (seed : UInt64) : SeededRng :=
  ⟨seed, Generator.ofSeed seed⟩

/-- The generator with which a run begins: that of the variable's value, or the one of a random seed
if the variable has no value or one that cannot be read. -/
def ofVariable (value : Option String) (random : UInt64) : SeededRng :=
  ofSeed ((value.bind parseSeed?).getD random)

/-- A seed as it stands in a replay hint. -/
def seedText (seed : UInt64) : String :=
  String.ofList ('0' :: 'x' :: Text.padded 16 16 seed.toNat)

/-- The assignment that repeats a run. -/
def replayHint (r : SeededRng) : String :=
  seedVariable ++ "=" ++ seedText r.seed

/-- The line that is logged when a generator is made: a command that repeats the run. -/
def replayLine (seed : UInt64) : String :=
  "   Replay: " ++ seedVariable ++ "=" ++ seedText seed ++ " cargo test ..."

/-- Draws a value. -/
def draw {α : Type} (f : Generator → α × Generator) (r : SeededRng) : α × SeededRng :=
  let (x, g) := f r.generator
  (x, { r with generator := g })

/-- A child generator, seeded by the next 64 bits. -/
def fork (r : SeededRng) : SeededRng × SeededRng :=
  let (seed, r) := r.draw Generator.next64
  (ofSeed seed, r)

end SeededRng

end TestChain
