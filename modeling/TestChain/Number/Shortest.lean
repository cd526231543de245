/-!
# The fewest digits of a double

`Shortest.digits` gives the decimal digits and the exponent of a positive double: of all decimals
that read back as that double those with the fewest digits, and of these the nearest. The search
tries one digit, then two, and so on; on each grid of decimals only the two neighbours of the exact
value can lie in the interval of numbers that round to it.
-/

namespace TestChain.Shortest

/-- A finite positive double as `mantissa * 2 ^ exponent`. -/
structure Binary where
  /-- The whole number that is scaled. -/
  mantissa : Nat
  /-- The power of two that scales it. -/
  exponent : Int
  /-- Whether the next smaller double is half as far away as the next larger one. -/
  lowerCloser : Bool

/-- The number of mantissas for each exponent. -/
def mantissas : Nat := 4503599627370496

/-- The exact value of the magnitude of a finite double. -/
def Binary.ofFloat (x : Float) : Binary :=
  let bits := x.toBits.toNat
  let fraction : Nat := bits % mantissas
  let biased : Nat := bits / mantissas % 2048
  if biased = 0 then ⟨fraction, -1074, false⟩
  else ⟨fraction + mantissas, (biased : Int) - 1075, fraction = 0 && 1 < biased⟩

/-- `n * 2 ^ e` as a fraction. -/
def scaled (n : Nat) (e : Int) : Nat × Nat :=
  if 0 ≤ e then (n * Nat.pow 2 e.toNat, 1) else (n, Nat.pow 2 (-e).toNat)

/-- The largest `e` with `10 ^ e` at most the fraction, found from a guess that is at most one too
high. -/
def leadingExponent (num den : Nat) : Int :=
  let guess : Int := ((num.log2 : Int) - den.log2) * 30103 / 100000
  let atLeast (e : Int) : Bool :=
    if 0 ≤ e then den * Nat.pow 10 e.toNat ≤ num else den ≤ num * Nat.pow 10 (-e).toNat
  if atLeast (guess + 1) then guess + 1 else if atLeast guess then guess else guess - 1

/-- The quotient of a fraction by a power of ten, as a fraction. -/
def divPow (num den : Nat) (e : Int) : Nat × Nat :=
  if 0 ≤ e then (num, den * Nat.pow 10 e.toNat) else (num * Nat.pow 10 (-e).toNat, den)

/-- Whether `c * 10 ^ e` rounds to the double: it lies between the midpoints to the two neighbours,
ends included when the mantissa is even. Everything is scaled by four times the exact value's
denominator. -/
def roundsTo (b : Binary) (c : Nat) (e : Int) : Bool :=
  let (num, den) := scaled b.mantissa (b.exponent)
  let (unit, _) := scaled 1 b.exponent
  let low := 4 * num - (if b.lowerCloser then unit else 2 * unit)
  let high := 4 * num + 2 * unit
  let (p, q) := if 0 ≤ e then (4 * c * Nat.pow 10 e.toNat * den, 1)
    else (4 * c * den, Nat.pow 10 (-e).toNat)
  if b.mantissa % 2 = 0 then low * q ≤ p && p ≤ high * q else low * q < p && p < high * q

/-- The nearest decimal with `count` digits that reads back, if there is one: its digits as a number
and the power of ten of the last. -/
def onGrid? (b : Binary) (leading : Int) (count : Nat) : Option (Nat × Int) :=
  let e := leading - (count - 1)
  let (num, den) := scaled b.mantissa b.exponent
  let (n, d) := divPow num den e
  let c := n / d
  let below := roundsTo b c e
  let above := roundsTo b (c + 1) e
  match below, above with
  | true, true =>
    let twice := 2 * (n % d)
    if twice < d || (twice = d && c % 2 = 0) then some (c, e) else some (c + 1, e)
  | true, false => some (c, e)
  | false, true => some (c + 1, e)
  | false, false => none

/-- Tries the digit counts from `count` on, `more` further ones at most. -/
def search (b : Binary) (leading : Int) : (count more : Nat) → Nat × Int
  | count, 0 => (onGrid? b leading count).getD (0, 0)
  | count, more + 1 =>
    match onGrid? b leading count with
    | some found => found
    | none => search b leading (count + 1) more

/-- Drops zeros at the end of a number, counting them into the exponent. -/
def dropZeros : Nat → Nat → Int → Nat × Int
  | 0, c, e => (c, e)
  | fuel + 1, c, e => if c ≠ 0 && c % 10 = 0 then dropZeros fuel (c / 10) (e + 1) else (c, e)

/-- The digits of a positive double, and the exponent of the first. -/
def digits (x : Float) : List Char × Int :=
  let b := Binary.ofFloat x
  let (num, den) := scaled b.mantissa b.exponent
  let (c, e) := search b (leadingExponent num den) 1 16
  let (c, e) := dropZeros 20 c e
  let ds := Nat.toDigits 10 c
  (ds, e + ds.length - 1)

end TestChain.Shortest
