import TestChain.Json.Reader
import TestChain.Json.Writer

/-!
# Codecs

A `Codec` writes the values of a type as JSON and decodes them from text trees. Here are the codecs
of single values, lists and enumerations; `Codec.record` and tagged unions stand in modules of their
own. `Codec.ofText` decodes a JSON text as it stands, `Codec.ofJson` a free value, whose members are
already in the order of their names.
-/

namespace TestChain

/-- How the values of a type are written as JSON and decoded from text trees. -/
structure Codec (α : Type) where
  /-- The value as JSON. -/
  encode : α → Json
  /-- The value that a tree stands for. -/
  decode : Node → Decoding α

namespace Codec

/-- Decodes a JSON text. Whatever follows the value is looked at last. -/
def ofChars {α : Type} (c : Codec α) (s : List Char) : Except DecodeError α := do
  let (node, whole) := Json.readText s
  let value ← (c.decode node).run' 0
  if whole then return value else throw .malformed

/-- Decodes a JSON text. -/
def ofText {α : Type} (c : Codec α) (s : String) : Except DecodeError α :=
  c.ofChars s.toList

/-- Decodes a free value. -/
def ofJson {α : Type} (c : Codec α) (j : Json) : Except DecodeError α :=
  (c.decode (Node.ofJson j)).run' 0

/-- A value as a free value. -/
def toJson {α : Type} (c : Codec α) (a : α) : Json :=
  (c.encode a).sorted

/-- A value as JSON text without blanks. -/
def text {α : Type} (c : Codec α) (a : α) : String :=
  (c.encode a).compact

/-- Texts. -/
def string : Codec String := ⟨.str, Node.text⟩

/-- The word that may spell a value of the type that a tag asks for: a bare word whatever its tag,
and a block of lines that has this tag. -/
def wordFor? (tag : Tag) : Node → Option String
  | .plain s => some s
  | .tagged _ (.plain s) => some s
  | .tagged t (.literal s) => if t = tag then some s else none
  | _ => none

/-- The truth value that a node stands for. -/
def boolOf (n : Node) : Decoding Bool := do
  match ← n.reached with
  | .bool b => return b
  | n =>
    match (wordFor? .bool n).bind Scalar.bool? with
    | some b => return b
    | none => throw .malformed

/-- Truth values. -/
def bool : Codec Bool := ⟨.bool, boolOf⟩

/-- The whole number that a node stands for; `spelled?` reads the words that may spell it. -/
def intOf (spelled? : List Char → Option Int) (n : Node) : Decoding Int := do
  match ← n.reached with
  | .num (.whole i _) => return i
  | n =>
    match (wordFor? .int n).bind fun s => spelled? s.toList with
    | some i => return i
    | none => throw .malformed

/-- The whole number below a bound and not negative that a node stands for. A word spells it without
a minus sign. -/
def natBelow (bound : Nat) (n : Node) : Decoding Nat := do
  let i ← intOf (fun s => (Scalar.nat? s).map Int.ofNat) n
  if 0 ≤ i ∧ i < bound then return i.toNat else throw .malformed

/-- Unsigned numbers of 64 bits. -/
def uint64 : Codec UInt64 where
  encode n := .nat n
  decode n := do return UInt64.ofNat (← natBelow UInt64.size n)

/-- Unsigned numbers of 32 bits. -/
def uint32 : Codec UInt32 where
  encode n := .nat n.toUInt64
  decode n := do return UInt32.ofNat (← natBelow UInt32.size n)

/-- Bytes. -/
def uint8 : Codec UInt8 where
  encode n := .nat n.toUInt64
  decode n := do return UInt8.ofNat (← natBelow UInt8.size n)

/-- Signed numbers of 64 bits. -/
def int64 : Codec Int64 where
  encode n := .num (.ofInt64 n)
  decode n := do
    let i ← intOf Scalar.int? n
    if -9223372036854775808 ≤ i ∧ i < 9223372036854775808 then return Int64.ofInt i
    else throw .malformed

/-- Free values. -/
def json : Codec Json := ⟨id, Node.toJson⟩

/-- Whether a node stands for the absent value. The tag of the absent value needs its name. -/
def isAbsent : Node → Decoding Bool
  | .null => return true
  | .plain s => return Scalar.isNull s
  | .tagged .null (.plain s) =>
    if Scalar.isNull s && !s.isEmpty then return true else throw .malformed
  | _ => return false

/-- Values that may be absent, written as `null`. -/
def option {α : Type} (c : Codec α) : Codec (Option α) where
  encode
    | none => .null
    | some a => c.encode a
  decode n := do
    let n ← n.reached
    if ← isAbsent n then return none else return some (← c.decode n)

/-- Decodes the items of a list in order. -/
def decodeItems {α : Type} (c : Codec α) : List Node → Decoding (List α)
  | [] => return []
  | n :: rest => do
    let a ← c.decode n
    let as ← c.decodeItems rest
    return a :: as

/-- Decodes a list. A bare word of no characters is the empty list. -/
def decodeList {α : Type} (c : Codec α) (n : Node) : Decoding (List α) := do
  match ← n.content with
  | .seq items origin =>
    origin.within do
      let as ← c.decodeItems items
      origin.close
      return as
  | .plain "" => return []
  | _ => throw .malformed

/-- Lists, written as arrays. -/
def list {α : Type} (c : Codec α) : Codec (List α) where
  encode as := .arr (as.map c.encode)
  decode := c.decodeList

/-- Values of another type that reads and writes as this one. -/
def map {α β : Type} (c : Codec α) (f : α → β) (g : β → α) : Codec β where
  encode b := c.encode (g b)
  decode n := f <$> c.decode n

/-- Values that are written as texts; reading one may be refused for a reason. -/
def ofParser {α : Type} (write : α → String) (read : String → Except String α) : Codec α where
  encode a := .str (write a)
  decode n := do
    let s ← n.text
    match read s with
    | .ok a => return a
    | .error reason => throw (.ofReason reason)

/-! ## Members in the order of the text -/

/-- Decodes members in the order of the text; a name that comes again keeps its first place and its
last value. -/
def decodeMembers {α : Type} (c : Codec α) :
    Members α → List (Node × Node) → Decoding (Members α)
  | sofar, [] => return sofar
  | sofar, (k, n) :: rest => do
    let name ← k.text
    let a ← c.decode n
    c.decodeMembers (Members.put name a sofar) rest

/-- Decodes the members of a mapping. -/
def decodeDictionary {α : Type} (c : Codec α) (n : Node) : Decoding (Members α) := do
  match ← n.content with
  | .map members origin =>
    origin.within do
      let as ← c.decodeMembers [] members
      origin.close
      return as
  | .plain "" => return []
  | _ => throw .malformed

/-- Dictionaries that keep the order in which their names were first put. -/
def dictionary {α : Type} (c : Codec α) : Codec (Members α) where
  encode members := .obj (members.map fun m => (m.1, c.encode m.2))
  decode := c.decodeDictionary

/-! ## Enumerations -/

/-- The case of a name. -/
def caseOf {α : Type} (read : String → Option α) (name : String) : Decoding α :=
  match read name with
  | some a => return a
  | none => throw .malformed

/-- Decodes what goes with the name of a case, which must be the absent value. -/
def decodeNothing : Node → Decoding Unit
  | .null => return ()
  | .plain s => if Scalar.isNull s then return () else throw .malformed
  | _ => throw .malformed

/-- Decodes the case of an enumeration: its name, its name as the only member of a mapping with the
absent value, or its name as a tag. -/
def decodeCase {α : Type} (read : String → Option α) (n : Node) : Decoding α := do
  match ← n.reached with
  | .tagged (.own name) body =>
    let a ← caseOf read name
    decodeNothing body
    return a
  | .map [(.str name, part)] origin =>
    if origin = .yaml then throw .malformed
    let a ← caseOf read name
    decodeNothing part
    origin.close
    return a
  | n =>
    match n.untagged.written? with
    | some (name, _) => caseOf read name
    | none => throw .malformed

/-- Enumerations, written as the names of their cases. -/
def enumeration {α : Type} (write : α → String) (read : String → Option α) : Codec α where
  encode a := .str (write a)
  decode := decodeCase read

end Codec

end TestChain
