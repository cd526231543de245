import TestChain.Codec.Error
import TestChain.Codec.Scalar

/-!
# Text trees

A `Node` is a JSON or YAML text as far as it can be read without knowing what is expected: bare
words keep their text, members keep their order and their repetitions, and the place where the text
breaks off is part of the tree, so that a decoder that walks the tree meets the faults of the text
and its own in the order of the text. An alias stands for another node of its text, which is made
only when a decoder follows it; how many may be followed is limited (`Decoding`). `toJson` decodes a
free value and `buffered` settles the type of every scalar.
-/

namespace TestChain

/-- A value that is being decoded. The state is the number of aliases that may still be followed.
-/
abbrev Decoding (α : Type) := StateT Nat (Except DecodeError) α

/-- Follows one of the aliases that may still be followed. -/
def Decoding.follow : Decoding Unit := do
  match ← get with
  | 0 => throw .malformed
  | left + 1 => set left

/-- Where a container comes from. -/
inductive Origin where
  /-- A JSON text, and whether the text goes on to the container's end. -/
  | text (whole : Bool)
  /-- A YAML text. Its sequences never stand for records, its mappings never for cases. -/
  | yaml
  /-- A value whose parts are all known. -/
  | value
  deriving DecidableEq, Repr

/-- The end of a container, which must be there once its parts are decoded. -/
def Origin.close : Origin → Decoding Unit
  | .text whole => if whole then return () else throw .malformed
  | _ => return ()

/-- Decodes a container's parts and its end. What is refused in a text is refused at a place. -/
def Origin.within {α : Type} (origin : Origin) (parts : Decoding α) : Decoding α := fun left =>
  match origin with
  | .text _ => (parts left).mapError DecodeError.inText
  | _ => parts left

/-- A text as a tree. -/
inductive Node where
  /-- The value `null`. -/
  | null
  /-- A truth value. -/
  | bool (value : Bool)
  /-- A number. -/
  | num (value : Number)
  /-- A text. -/
  | str (value : String)
  /-- A bare word. -/
  | plain (word : String)
  /-- A text written as a block of lines that are kept. -/
  | literal (lines : String)
  /-- A sequence. -/
  | seq (items : List Node) (origin : Origin)
  /-- A mapping, as its keys and their values. -/
  | map (members : List (Node × Node)) (origin : Origin)
  /-- A node with a tag in front. -/
  | tagged (tag : Tag) (body : Node)
  /-- Another node of the text, which is no alias. -/
  | alias (target : Unit → Node)
  /-- Something well formed that has no value: a text that is no Unicode text, a number outside the
  range of doubles or a container nested too deeply. -/
  | unreadable
  /-- The place at which the text breaks off. -/
  | cut

namespace Node

/-- Passes over a node that is not used. -/
def skip : Node → Decoding Unit
  | .cut => throw .malformed
  | .seq _ origin => origin.close
  | .map _ origin => origin.close
  | _ => return ()

/-- The node that an alias stands for, or the node itself. -/
def reached : Node → Decoding Node
  | .alias target => do
    Decoding.follow
    return target ()
  | n => return n

/-- The node without its tag. -/
def untagged : Node → Node
  | .tagged _ body => body
  | n => n

/-- What a node stands for where tags do not count. -/
def content (n : Node) : Decoding Node := do
  return (← n.reached).untagged

/-- The text of a scalar as it is written, and whether it is a bare word. -/
def written? : Node → Option (String × Bool)
  | .str s => some (s, false)
  | .literal s => some (s, false)
  | .plain s => some (s, true)
  | _ => none

/-- The text that a node stands for; every scalar is one. -/
def text (n : Node) : Decoding String := do
  match (← n.content).written? with
  | some (s, _) => return s
  | none => throw .malformed

/-! ## Free values -/

/-- The free value that a scalar stands for; `s` is its text. -/
def scalarToJson (s : String) : Scalar → Decoding Json
  | .null => return .null
  | .bool b => return .bool b
  | .num n => return .num n
  | .notFinite => return .null
  | .tooLarge => throw .malformed
  | .text => return .str s

/-- The free value that a scalar with a tag stands for. -/
def taggedToJson (tag : Tag) (s : String) (bare : Bool) : Decoding Json :=
  match Scalar.ofTagged? tag bare s with
  | some scalar => scalarToJson s scalar
  | none => throw .malformed

mutual

/-- Decodes a free value. Members are kept in the order of their names, of several with one name the
last. -/
def toJson : Node → Decoding Json
  | .null => return .null
  | .bool b => return .bool b
  | .num n => return .num n
  | .str s => return .str s
  | .plain s => scalarToJson s (Scalar.ofWord s)
  | .literal s => return .str s
  | .seq items origin => do
    let items ← itemsToJson items
    origin.close
    return .arr items
  | .map members origin => do
    let members ← membersToJson members
    origin.close
    -- A free value keeps its members in the order of their names, the last of a name.
    return .obj (Members.sorted members)
  | .tagged tag body =>
    match body.written? with
    | some (s, bare) => taggedToJson tag s bare
    | none => if tag.isOwn then throw .malformed else body.toJson
  | .alias target => do
    Decoding.follow
    (target ()).toJson
  | .unreadable => throw .malformed
  | .cut => throw .malformed

/-- Decodes the items of a sequence. -/
def itemsToJson : List Node → Decoding (List Json)
  | [] => return []
  | n :: rest => do
    let j ← n.toJson
    let js ← itemsToJson rest
    return j :: js

/-- Decodes the members of a mapping, in the order of the text. -/
def membersToJson : List (Node × Node) → Decoding (List (String × Json))
  | [] => return []
  | (k, n) :: rest => do
    let name ← k.text
    let j ← n.toJson
    let js ← membersToJson rest
    return (name, j) :: js

end

/-! ## Settled types -/

/-- What a scalar stands for where its type is settled by itself; `s` is its text. -/
def scalarBuffered (s : String) : Scalar → Decoding Node
  | .null => return .null
  | .bool b => return .bool b
  | .num n => return .num n
  | .notFinite => return .unreadable
  | .tooLarge => throw .malformed
  | .text => return .str s

/-- What a scalar with a tag stands for. -/
def taggedBuffered (tag : Tag) (s : String) (bare : Bool) : Decoding Node :=
  match Scalar.ofTagged? tag bare s with
  | some scalar => scalarBuffered s scalar
  | none => throw .malformed

/-- Whether a scalar is written with a minus sign. -/
def hasMinus : Node → Bool
  | .str s => s.toList.head? = some '-'
  | .plain s => s.toList.head? = some '-'
  | .literal s => s.toList.head? = some '-'
  | .tagged _ body => body.hasMinus
  | .alias target => (target ()).hasMinus
  | _ => false

/-- What a key stands for, once its type is settled. A number written with a minus sign names
nothing, minus zero neither. -/
def settledKey (written settled : Node) : Node :=
  match settled with
  | .num n => if written.hasMinus then .unreadable else .num n
  | k => k

mutual

/-- The tree with the type of every scalar settled; it has no part that cannot be read. -/
def buffered : Node → Decoding Node
  | .plain s => scalarBuffered s (Scalar.ofWord s)
  | .literal s => return .str s
  | .seq items origin => do
    let items ← bufferedItems items
    origin.close
    return .seq items .value
  | .map members origin => do
    let members ← bufferedMembers members
    origin.close
    return .map members .value
  | .tagged tag body =>
    match body.written? with
    | some (s, bare) => taggedBuffered tag s bare
    | none => if tag.isOwn then throw .malformed else body.buffered
  | .alias target => do
    Decoding.follow
    (target ()).buffered
  | .unreadable => throw .malformed
  | .cut => throw .malformed
  | n => return n

/-- `buffered` of every item. -/
def bufferedItems : List Node → Decoding (List Node)
  | [] => return []
  | n :: rest => do
    let m ← n.buffered
    let ms ← bufferedItems rest
    return m :: ms

/-- `buffered` of every key and every value. -/
def bufferedMembers : List (Node × Node) → Decoding (List (Node × Node))
  | [] => return []
  | (k, n) :: rest => do
    let key ← k.buffered
    let m ← n.buffered
    let ms ← bufferedMembers rest
    return (settledKey k key, m) :: ms

end

/-! ## Values in memory -/

mutual

/-- A free value as a tree. -/
def ofJson : Json → Node
  | .null => .null
  | .bool b => .bool b
  | .num n => .num n
  | .str s => .str s
  | .arr items => .seq (ofItems items) .value
  | .obj members => .map (ofMembers members) .value

/-- `ofJson` of every item. -/
def ofItems : List Json → List Node
  | [] => []
  | j :: rest => ofJson j :: ofItems rest

/-- `ofJson` of every member's value. -/
def ofMembers : List (String × Json) → List (Node × Node)
  | [] => []
  | (name, j) :: rest => (.str name, ofJson j) :: ofMembers rest

end

end Node

end TestChain
