/-!
# Byte strings

Keys, stored values and hashed messages are lists of bytes. `ofString` gives the UTF-8 encoding of a
text, `toString?` reads it back, and `bigEndian` and `littleEndian` write a number in a fixed count
of bytes. `toVector?` gives a byte string of a known length its fixed-size type.
-/

namespace TestChain

/-- A byte string. -/
abbrev Bytes := List UInt8

namespace Bytes

/-- The UTF-8 encoding of a text. -/
def ofString (s : String) : Bytes :=
  s.toUTF8.data.toList

/-- The packed form of a byte string. -/
def pack (b : Bytes) : ByteArray :=
  ⟨b.toArray⟩

/-- The bytes of a packed byte string, in order. -/
def unpack (b : ByteArray) : Bytes :=
  b.data.toList

/-- The text that a byte string encodes in UTF-8, if it encodes one. -/
def toString? (b : Bytes) : Option String :=
  String.fromUTF8? b.pack

/-- The low `count` bytes of a number, the lowest first. -/
def littleEndian : Nat → Nat → Bytes
  | 0, _ => []
  | count + 1, value => value.toUInt8 :: littleEndian count (value / 256)

/-- The low `count` bytes of a number, the highest first. -/
def bigEndian (count value : Nat) : Bytes :=
  (littleEndian count value).reverse

/-- The number whose bytes are given, the lowest first. -/
def toNatLittleEndian (b : Bytes) : Nat :=
  b.foldr (fun byte rest => byte.toNat + 256 * rest) 0

/-- A byte string of the expected length, in its fixed-size type. -/
def toVector? (n : Nat) (b : Bytes) : Option (Vector UInt8 n) :=
  if h : b.length = n then some ⟨b.toArray, by simpa using h⟩ else none

/-- `littleEndian` writes as many bytes as it is asked for. -/
@[simp]
theorem length_littleEndian (count value : Nat) : (littleEndian count value).length = count := by
  induction count generalizing value with
  | zero => rfl
  | succ count ih => simp [littleEndian, ih]

/-- `bigEndian` writes as many bytes as it is asked for. -/
@[simp]
theorem length_bigEndian (count value : Nat) : (bigEndian count value).length = count := by
  simp [bigEndian]

end Bytes

end TestChain
