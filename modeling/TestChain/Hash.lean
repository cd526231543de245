import TestChain.Bytes.Hex
import TestChain.Codec.Basic
import TestChain.Digest.Blake3

/-!
# Hashes

A `Hash` is 32 bytes, written in hexadecimal digits. `Hash.of` is the BLAKE3 digest of a byte
string.
-/

namespace TestChain

/-- A hash of 32 bytes. -/
structure Hash where
  /-- The bytes. -/
  bytes : Vector UInt8 32
  deriving DecidableEq, Repr

/-- Why a text is no hash. -/
inductive HashError where
  /-- The text is not hexadecimal. -/
  | notHex
  /-- The text does not have 64 digits. -/
  | wrongLength
  deriving DecidableEq, Repr

/-- The wording of the error. -/
def HashError.message : HashError → String
  | .notHex => "Invalid hex string"
  | .wrongLength => "Invalid hash"

namespace Hash

/-- The hash of zeros. -/
def zero : Hash := ⟨Vector.replicate 32 0⟩

instance : Inhabited Hash := ⟨zero⟩

/-- The digest of a byte string. -/
def of (b : Bytes) : Hash :=
  ⟨Blake3.hash b⟩

/-- A hash in hexadecimal digits. -/
def text (h : Hash) : String :=
  Hex.encode h.bytes.toList

/-- The hash that a text stands for. -/
def parse (s : String) : Except HashError Hash :=
  match Hex.decode s with
  | .error _ => .error .notHex
  | .ok b =>
    match Bytes.toVector? 32 b with
    | some v => .ok ⟨v⟩
    | none => .error .wrongLength

/-- A hash as diagnostics show it: its bytes as numbers. -/
def debug (h : Hash) : String :=
  "Hash([" ++ String.intercalate ", " (h.bytes.toList.map fun b => toString b.toNat) ++ "])"

/-- Hashes are written as texts. -/
def codec : Codec Hash :=
  .ofParser text fun s => (parse s).mapError HashError.message

end Hash

end TestChain
