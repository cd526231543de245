/-!
# Words that stop at their ends

Amounts, heights and times are unsigned numbers of 64 bits. `addSat` and `mulSat` stop at the
largest of them, `add?` and `mul?` give nothing when the result does not fit, and `sub?` nothing
when it would be negative.
-/

namespace TestChain.Word

/-- The largest unsigned number of 64 bits. -/
def max : UInt64 := 18446744073709551615

/-- The word of a number, or the largest word. -/
def clamp (n : Nat) : UInt64 :=
  if n < UInt64.size then UInt64.ofNat n else max

/-- The sum, or the largest word. -/
def addSat (a b : UInt64) : UInt64 :=
  clamp (a.toNat + b.toNat)

/-- The product, or the largest word. -/
def mulSat (a b : UInt64) : UInt64 :=
  clamp (a.toNat * b.toNat)

/-- The word of a number that fits. -/
def ofNat? (n : Nat) : Option UInt64 :=
  if n < UInt64.size then some (UInt64.ofNat n) else none

/-- The sum, if it fits. -/
def add? (a b : UInt64) : Option UInt64 :=
  ofNat? (a.toNat + b.toNat)

/-- The product, if it fits. -/
def mul? (a b : UInt64) : Option UInt64 :=
  ofNat? (a.toNat * b.toNat)

/-- The difference, if it is not negative. -/
def sub? (a b : UInt64) : Option UInt64 :=
  if b ≤ a then some (a - b) else none

/-- Clamping is taking the minimum with the largest word. -/
@[simp]
theorem toNat_clamp (n : Nat) : (clamp n).toNat = min n (UInt64.size - 1) := by
  unfold clamp
  split
  · rename_i h
    rw [UInt64.toNat_ofNat_of_lt' h]
    omega
  · have : max.toNat = UInt64.size - 1 := by decide
    omega

/-- A sum stops at the largest word. -/
@[simp]
theorem toNat_addSat (a b : UInt64) :
    (addSat a b).toNat = min (a.toNat + b.toNat) (UInt64.size - 1) :=
  toNat_clamp _

/-- A product stops at the largest word. -/
@[simp]
theorem toNat_mulSat (a b : UInt64) :
    (mulSat a b).toNat = min (a.toNat * b.toNat) (UInt64.size - 1) :=
  toNat_clamp _

end TestChain.Word
