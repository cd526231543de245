import TestChain.Bytes.Hex
import TestChain.Codec.Basic
import TestChain.Digest.Sha3
import TestChain.Ed25519.Signature
import TestChain.Random.Generator

/-!
# Keys and addresses

A `PrivateKey` signs, its `PublicKey` verifies, and an `Address` is the first twenty bytes of the
SHA3-256 digest of a public key or of a module's name. An address has a kind, which shows in the
words in front of its text; the three addresses of one key share their bytes.
-/

namespace TestChain

/-- What an address stands for. -/
inductive AddressKind where
  /-- An account. -/
  | account
  /-- A validator's operator. -/
  | validator
  /-- A validator's place in the consensus. -/
  | consensus
  deriving DecidableEq, Repr

/-- The words in front of the texts of a kind's addresses. -/
def AddressKind.lead : AddressKind → String
  | .account => "blocksim"
  | .validator => "blocksimvaloper"
  | .consensus => "blocksimvalcons"

/-- An address of a kind. -/
structure Address (kind : AddressKind) where
  /-- The bytes. -/
  bytes : Vector UInt8 20
  deriving DecidableEq, Repr

/-- The address of an account. -/
abbrev AccountAddress := Address .account

/-- The address of a validator's operator. -/
abbrev ValidatorAddress := Address .validator

/-- The address of a validator in the consensus. -/
abbrev ConsensusAddress := Address .consensus

/-- Why a text is no address of a kind. -/
inductive AddressFault where
  /-- It does not begin as the kind's addresses do. -/
  | wrongLead (kind : AddressKind)
  /-- The rest is not hexadecimal. -/
  | notHex (fault : Hex.Fault)
  /-- The rest does not have forty digits. -/
  | wrongLength
  deriving DecidableEq, Repr

/-- The wording of the reason. -/
def AddressFault.message : AddressFault → String
  | .wrongLead kind => "expected prefix " ++ kind.lead ++ "1"
  | .notHex fault => fault.message
  | .wrongLength => "expected 20 bytes"

/-- Errors of keys, signatures and addresses. -/
inductive KeyError where
  /-- A private key does not have 32 bytes. -/
  | privateKeyLength (size : Nat)
  /-- A public key does not have 32 bytes. -/
  | publicKeyLength (size : Nat)
  /-- A public key is no point of the curve. -/
  | badPublicKey
  /-- A signature is not the signer's. -/
  | badSignature
  /-- A key is not hexadecimal. -/
  | notHex (fault : Hex.Fault)
  /-- A text is no address. -/
  | badAddress (text : String) (fault : AddressFault)
  deriving DecidableEq, Repr

/-- The wording of the error. -/
def KeyError.message : KeyError → String
  | .privateKeyLength size => s!"Invalid private key length: expected 32, got {size}"
  | .publicKeyLength size => s!"Invalid public key length: expected 32, got {size}"
  | .badPublicKey => "Failed to parse public key"
  | .badSignature => "Signature verification failed"
  | .notHex fault => "Invalid hex string: " ++ fault.message
  | .badAddress text fault => "Invalid address " ++ text ++ ": " ++ fault.message

/-- A public key. Any 32 bytes are one; whether they are a point of the curve is seen when a
signature is verified. -/
structure PublicKey where
  /-- The bytes. -/
  bytes : Vector UInt8 32
  deriving DecidableEq, Repr

/-- The bytes of an address, taken from a digest. -/
def addressBytes (b : Bytes) : Vector UInt8 20 :=
  (Sha3.hash256 b).extract 0 20

namespace Address

/-- The words, a one and the digits: the text of an address. -/
def text {kind : AddressKind} (a : Address kind) : String :=
  kind.lead ++ "1" ++ Hex.encode a.bytes.toList

/-- What follows the words and the one in a text. -/
def body? (kind : AddressKind) (s : String) : Option String :=
  let lead := kind.lead.toList ++ ['1']
  if lead.isPrefixOf s.toList then some (String.ofList (s.toList.drop lead.length)) else none

/-- The address that a text stands for, without the text in the error. -/
def parseBody (kind : AddressKind) (s : String) : Except AddressFault (Address kind) :=
  match body? kind s with
  | none => .error (.wrongLead kind)
  | some body =>
    match Hex.decode body with
    | .error fault => .error (.notHex fault)
    | .ok b =>
      match Bytes.toVector? 20 b with
      | some v => .ok ⟨v⟩
      | none => .error .wrongLength

/-- The address that a text stands for. -/
def parse (kind : AddressKind) (s : String) : Except KeyError (Address kind) :=
  (parseBody kind s).mapError (.badAddress s)

/-- The address of a public key. -/
def ofPublicKey (kind : AddressKind) (key : PublicKey) : Address kind :=
  ⟨addressBytes key.bytes.toList⟩

/-- The address of the account that belongs to a module or pool. -/
def ofModule (name : String) : AccountAddress :=
  ⟨addressBytes (Bytes.ofString name)⟩

/-- The account of a validator's operator. -/
def toAccount (a : ValidatorAddress) : AccountAddress :=
  ⟨a.bytes⟩

/-- The name that diagnostics give a kind's addresses. -/
def kindName : AddressKind → String
  | .account => "AccountAddress"
  | .validator => "ValidatorAddress"
  | .consensus => "ConsensusAddress"

/-- An address as diagnostics show it. -/
def debug {kind : AddressKind} (a : Address kind) : String :=
  kindName kind ++ "(" ++ a.text ++ ")"

/-- Addresses are written as texts. -/
def codec (kind : AddressKind) : Codec (Address kind) :=
  .ofParser text fun s => (parse kind s).mapError KeyError.message

end Address

namespace PublicKey

/-- A public key in hexadecimal digits. -/
def text (k : PublicKey) : String :=
  Hex.encode k.bytes.toList

/-- A public key as diagnostics show it. -/
def debug (k : PublicKey) : String :=
  "PublicKey(" ++ k.text ++ ")"

/-- The public key of a byte string. -/
def ofBytes (b : Bytes) : Except KeyError PublicKey :=
  match Bytes.toVector? 32 b with
  | some v => .ok ⟨v⟩
  | none => .error (.publicKeyLength b.length)

/-- The public key that a hexadecimal text stands for. -/
def parse (s : String) : Except KeyError PublicKey :=
  match Hex.decode s with
  | .error fault => .error (.notHex fault)
  | .ok b => ofBytes b

/-- The account of a key. -/
def accountAddress (k : PublicKey) : AccountAddress := .ofPublicKey .account k

/-- The operator's address of a key. -/
def operatorAddress (k : PublicKey) : ValidatorAddress := .ofPublicKey .validator k

/-- The consensus address of a key. -/
def consensusAddress (k : PublicKey) : ConsensusAddress := .ofPublicKey .consensus k

/-- Tests a signature of a message. -/
def verify (k : PublicKey) (message : Bytes) (signature : Vector UInt8 64) : Except KeyError Unit :=
  match Ed25519.verify k.bytes.toList message signature.toList with
  | .valid => .ok ()
  | .badKey => .error .badPublicKey
  | .badSignature => .error .badSignature

/-- Public keys are written as texts. -/
def codec : Codec PublicKey :=
  .ofParser text fun s => (parse s).mapError KeyError.message

end PublicKey

/-- A private key. -/
structure PrivateKey where
  /-- The secret bytes. -/
  secret : Vector UInt8 32
  deriving DecidableEq, Repr

namespace PrivateKey

/-- A private key in hexadecimal digits. -/
def text (k : PrivateKey) : String :=
  Hex.encode k.secret.toList

/-- The private key of a byte string. -/
def ofBytes (b : Bytes) : Except KeyError PrivateKey :=
  match Bytes.toVector? 32 b with
  | some v => .ok ⟨v⟩
  | none => .error (.privateKeyLength b.length)

/-- The private key that a hexadecimal text stands for. -/
def parse (s : String) : Except KeyError PrivateKey :=
  match Hex.decode s with
  | .error fault => .error (.notHex fault)
  | .ok b => ofBytes b

/-- The public key of a private key. -/
def publicKey (k : PrivateKey) : PublicKey :=
  let bytes := (Ed25519.publicBytes k.secret.toList).toArray
  ⟨Vector.ofFn fun i : Fin 32 => bytes[i.val]?.getD 0⟩

/-- The signature of a message. -/
def sign (k : PrivateKey) (message : Bytes) : Vector UInt8 64 :=
  let signature := (Ed25519.sign k.secret.toList message).toArray
  Vector.ofFn fun i : Fin 64 => signature[i.val]?.getD 0

/-- Draws a private key. -/
def generate (g : Generator) : PrivateKey × Generator :=
  let (b, g) := g.bytes32
  (⟨b⟩, g)

/-- A private key as diagnostics show it: without the secret. -/
def debug (k : PrivateKey) : String :=
  "PrivateKey \x7b public_key: " ++ k.publicKey.debug ++ ", secret: \"[REDACTED]\" \x7d"

end PrivateKey

/-- The pair of keys of a validator. -/
structure ValidatorKey where
  /-- The private key. -/
  privateKey : PrivateKey
  /-- The public key. -/
  publicKey : PublicKey
  /-- The public key belongs to the private key. -/
  publicKey_eq : publicKey = privateKey.publicKey := by rfl

namespace ValidatorKey

/-- The pair of a private key. -/
def ofPrivateKey (k : PrivateKey) : ValidatorKey :=
  { privateKey := k, publicKey := k.publicKey }

/-- Draws a pair of keys. -/
def generate (g : Generator) : ValidatorKey × Generator :=
  let (k, g) := PrivateKey.generate g
  (ofPrivateKey k, g)

/-- The pair of the private key that a hexadecimal text stands for. -/
def parse (s : String) : Except KeyError ValidatorKey :=
  ofPrivateKey <$> PrivateKey.parse s

/-- The account of a pair. -/
def accountAddress (k : ValidatorKey) : AccountAddress := k.publicKey.accountAddress

/-- The operator's address of a pair. -/
def operatorAddress (k : ValidatorKey) : ValidatorAddress := k.publicKey.operatorAddress

/-- The consensus address of a pair. -/
def consensusAddress (k : ValidatorKey) : ConsensusAddress := k.publicKey.consensusAddress

/-- A pair as diagnostics show it: by its operator's address only. -/
def debug (k : ValidatorKey) : String :=
  "ValidatorKey \x7b operator: " ++ k.operatorAddress.debug ++ ", .. \x7d"

end ValidatorKey

end TestChain
