import TestChain.Bytes
import TestChain.Text.Quoted

/-!
# Hexadecimal text

A byte string is written with two lower-case hexadecimal digits a byte (`encode`) and read with
digits of either case (`decode`). Reading looks at the bytes of the text, so that an error names the
byte at fault and its place; an odd number of bytes is reported before anything else.
-/

namespace TestChain.Hex

/-- Why a text is not a hexadecimal byte string. -/
inductive Fault where
  /-- The text has an odd number of bytes. -/
  | oddLength
  /-- The byte at this index is no hexadecimal digit. -/
  | invalidCharacter (byte : UInt8) (index : Nat)
  deriving DecidableEq, Repr

/-- The wording of a fault. The byte is shown as the character of the same number. -/
def Fault.message : Fault → String
  | .oddLength => "Odd number of digits"
  | .invalidCharacter byte index =>
    s!"Invalid character {Text.quotedChar (Char.ofNat byte.toNat)} at position {index}"

/-- The lower-case digit of a number below sixteen. -/
def digit (n : Nat) : Char :=
  if n < 10 then Char.ofNat (48 + n) else Char.ofNat (87 + n)

/-- The value of a hexadecimal digit, given as its byte. -/
def digitValue? (b : UInt8) : Option Nat :=
  let n := b.toNat
  if 48 ≤ n && n ≤ 57 then some (n - 48)
  else if 97 ≤ n && n ≤ 102 then some (n - 87)
  else if 65 ≤ n && n ≤ 70 then some (n - 55)
  else none

/-- The digits of a byte string. -/
def digits (b : Bytes) : List Char :=
  b.flatMap fun byte => [digit (byte.toNat / 16), digit (byte.toNat % 16)]

/-- A byte string in lower-case hexadecimal digits. -/
def encode (b : Bytes) : String :=
  String.ofList (digits b)

/-- The value of the digit at `index`. -/
def digitAt (byte : UInt8) (index : Nat) : Except Fault Nat :=
  match digitValue? byte with
  | some value => .ok value
  | none => .error (.invalidCharacter byte index)

/-- Reads pairs of digits from `index` on. -/
def decodePairs (index : Nat) : Bytes → Except Fault Bytes
  | high :: low :: rest => do
    let h ← digitAt high index
    let l ← digitAt low (index + 1)
    let bytes ← decodePairs (index + 2) rest
    return (16 * h + l).toUInt8 :: bytes
  | _ => .ok []

/-- The byte string that a hexadecimal text stands for. -/
def decode (s : String) : Except Fault Bytes :=
  let bytes := Bytes.ofString s
  if bytes.length % 2 = 1 then .error .oddLength else decodePairs 0 bytes

end TestChain.Hex
