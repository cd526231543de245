import TestChain.Digest.Sha512
import TestChain.Ed25519.Curve

/-!
# Ed25519 signatures

`publicBytes` derives the public key of a 32-byte secret, `sign` signs a message with the secret,
and `verify` tests a signature. A signature is the encoding of a point `R` followed by a scalar `S`
below the base point's order; the test computes `R` again from the other data and compares
encodings.
-/

namespace TestChain.Ed25519

/-- The outcomes of testing a signature. -/
inductive Verdict where
  /-- The signature is the signer's. -/
  | valid
  /-- The public key is no point of the curve. -/
  | badKey
  /-- The signature is not one of this message by this key. -/
  | badSignature
  deriving DecidableEq, Repr

/-- The digest of some byte strings in a row, as a scalar. -/
def challenge (parts : List Bytes) : Nat :=
  Bytes.toNatLittleEndian (Sha512.hash parts.flatten) % order

/-- The secret scalar: the first half of the secret's digest with its three lowest bits and its
highest bit cleared and the next one set. -/
def secretScalar (secret : Bytes) : Nat :=
  let n := Bytes.toNatLittleEndian ((Sha512.hash secret).take 32)
  n % (1 <<< 254) / 8 * 8 + (1 <<< 254)

/-- A multiple of the base point, encoded. -/
def encodeMultiple (n : Nat) : Bytes :=
  (Point.scale 256 n Point.base).encode

/-- The public key of a secret. -/
def publicBytes (secret : Bytes) : Bytes :=
  encodeMultiple (secretScalar secret)

/-- The signature of a message. -/
def sign (secret message : Bytes) : Bytes :=
  let a := secretScalar secret
  let r := challenge [(Sha512.hash secret).drop 32, message]
  let commitment := encodeMultiple r
  let k := challenge [commitment, publicBytes secret, message]
  commitment ++ Bytes.littleEndian 32 ((r + k * a) % order)

/-- Tests a signature of 64 bytes against a public key of 32. -/
def verify (publicKey message signature : Bytes) : Verdict :=
  match Point.decode? publicKey with
  | none => .badKey
  | some key =>
    let commitment := signature.take 32
    let s := Bytes.toNatLittleEndian (signature.drop 32)
    if s < order then
      let k := challenge [commitment, publicKey, message]
      let point := (Point.scale 256 s Point.base).add (Point.scale 256 k key.neg)
      if point.encode = commitment then .valid else .badSignature
    else .badSignature

end TestChain.Ed25519
