import TestChain.Bytes

/-!
# The curve of Ed25519

The twisted Edwards curve `-x² + y² = 1 + d x² y²` over the field of `2^255 - 19` elements, with
points in extended coordinates. `Point.encode` and `Point.decode?` are the 32-byte form of a point:
`y` in 255 bits and the parity of `x` in the last. Decoding takes `y` modulo the field's size, so a
point may have more than one encoding.
-/

namespace TestChain.Ed25519

/-- The size of the field. -/
def fieldSize : Nat := (1 <<< 255) - 19

/-- The order of the base point. -/
def order : Nat := (1 <<< 252) + 27742317777372353535851937790883648493

/-- `a ^ n % m` by square-and-multiply over the `bits` low bits of `n`. -/
def powMod (m : Nat) : Nat → Nat → Nat → Nat
  | 0, _, _ => 1 % m
  | bits + 1, a, n =>
    let r := powMod m bits (a * a % m) (n / 2)
    if n % 2 = 1 then r * a % m else r

/-- Subtraction in the field, of elements below its size. -/
def sub (a b : Nat) : Nat :=
  (a + fieldSize - b) % fieldSize

/-- The inverse of a field element; zero for zero. -/
def inverse (a : Nat) : Nat :=
  powMod fieldSize 255 a (fieldSize - 2)

/-- The curve's constant `d`. -/
def curveD : Nat :=
  37095705934669439343138083508754565189542113879843219016388785533085940283555

/-- A square root of minus one. -/
def rootMinusOne : Nat :=
  19681161376707505956807079304988542015446066515923890162744021073123829784752

/-- A point `(x / z, y / z)`, with `t / z` the product of its coordinates. -/
structure Point where
  /-- The scaled first coordinate. -/
  x : Nat
  /-- The scaled second coordinate. -/
  y : Nat
  /-- The scale. -/
  z : Nat
  /-- The scaled product of the coordinates. -/
  t : Nat

namespace Point

/-- The neutral element. -/
def zero : Point := ⟨0, 1, 1, 0⟩

/-- The base point. -/
def base : Point :=
  let x := 15112221349535400772501151409588531511454012693041857206046113283949847762202
  let y := 46316835694926478169428394003475163141307993866256225615783033603165251855960
  ⟨x, y, 1, x * y % fieldSize⟩

/-- The sum of two points, by the formulas that hold for every pair. -/
def add (p q : Point) : Point :=
  let a := sub p.y p.x * sub q.y q.x % fieldSize
  let b := (p.y + p.x) * (q.y + q.x) % fieldSize
  let c := 2 * curveD * p.t % fieldSize * q.t % fieldSize
  let d := 2 * p.z * q.z % fieldSize
  let e := sub b a
  let f := sub d c
  let g := d + c
  let h := b + a
  ⟨e * f % fieldSize, g * h % fieldSize, f * g % fieldSize, e * h % fieldSize⟩

/-- The inverse of a point. -/
def neg (p : Point) : Point :=
  ⟨sub 0 p.x, p.y, p.z, sub 0 p.t⟩

/-- `n` times a point, by double-and-add over the `bits` low bits of `n`. -/
def scale : Nat → Nat → Point → Point
  | 0, _, _ => zero
  | bits + 1, n, p =>
    let r := scale bits (n / 2) (p.add p)
    if n % 2 = 1 then r.add p else r

/-- The 32-byte form of a point. -/
def encode (p : Point) : Bytes :=
  let w := inverse p.z
  let x := p.x * w % fieldSize
  let y := p.y * w % fieldSize
  Bytes.littleEndian 32 (y + ((x % 2) <<< 255))

/-- A square root of `u / v`, if there is one. -/
def rootOfQuotient? (u v : Nat) : Option Nat :=
  let v3 := v * v % fieldSize * v % fieldSize
  let v7 := v3 * v3 % fieldSize * v % fieldSize
  let r := u * v3 % fieldSize *
    powMod fieldSize 255 (u * v7 % fieldSize) ((fieldSize - 5) / 8) % fieldSize
  let check := v * r % fieldSize * r % fieldSize
  if check = u then some r
  else if check = sub 0 u then some (r * rootMinusOne % fieldSize)
  else none

/-- The point with the given 32-byte form, if there is one on the curve. -/
def decode? (b : Bytes) : Option Point :=
  let n := Bytes.toNatLittleEndian b
  let y := n % (1 <<< 255) % fieldSize
  let yy := y * y % fieldSize
  match rootOfQuotient? (sub yy 1) ((curveD * yy + 1) % fieldSize) with
  | none => none
  | some r =>
    let x := if r % 2 = n >>> 255 then r else sub 0 r
    some ⟨x, y, 1, x * y % fieldSize⟩

end Point

end TestChain.Ed25519
