import TestChain.Hash

/-!
# The state hash

The state hash of a genesis document is the digest of `StateHash.preimage`, an encoding in which
every text, array and object has its length in front and every value a tag for its kind. Modules and
the members of objects are taken in increasing order of their names, so that the hash does not
depend on the order of the document.
-/

namespace TestChain.StateHash

/-- A length in four bytes, the highest first. -/
def lengthBytes (n : Nat) : Bytes :=
  Bytes.bigEndian 4 n

/-- A text with its length in front. -/
def stringBytes (s : String) : Bytes :=
  let b := Bytes.ofString s
  lengthBytes b.length ++ b

/-- Encoded members in increasing order of their names, each after its name. -/
def memberBytes (members : Members Bytes) : Bytes :=
  (Members.sorted members).flatMap fun m => stringBytes m.1 ++ m.2

mutual

/-- The encoding of a value. -/
def valueBytes : Json → Bytes
  | .null => [0]
  | .bool false => [1]
  | .bool true => [2]
  | .num n => 3 :: stringBytes (String.ofList n.text)
  | .str s => 4 :: stringBytes s
  | .arr items => 5 :: lengthBytes items.length ++ itemsBytes items
  | .obj members =>
    let encoded := membersBytes members
    6 :: lengthBytes encoded.length ++ memberBytes encoded

/-- The encodings of the items of an array, in order. -/
def itemsBytes : List Json → Bytes
  | [] => []
  | j :: rest => valueBytes j ++ itemsBytes rest

/-- The encodings of the members' values. -/
def membersBytes : List (String × Json) → Members Bytes
  | [] => []
  | (name, j) :: rest => (name, valueBytes j) :: membersBytes rest

end

/-- The encoding of the modules of a document. -/
def preimage (modules : Members Json) : Bytes :=
  lengthBytes modules.length ++ memberBytes (membersBytes modules)

/-- The state hash of the modules of a document. -/
def ofModules (modules : Members Json) : Hash :=
  Hash.of (preimage modules)

end TestChain.StateHash
