import TestChain.Bytes
import TestChain.Codec.Scalar
import TestChain.Yaml.Cursor

/-!
# Tags of YAML

A tag is written whole in angle brackets, or as a handle and what follows it; a handle stands for
some leading bytes, which instructions before the document may choose (`Lead`). The characters of a
tag may be written as the codes of their bytes in UTF-8. `Tag.ofBytes` says what a tag asks for.
-/

namespace TestChain

/-- The leading bytes of the tags of the core schema. -/
def Tag.coreLead : Bytes := Bytes.ofString "tag:yaml.org,2002:"

/-- What a tag asks for. One that begins with an exclamation mark is the document's own. -/
def Tag.ofBytes (b : Bytes) : Tag :=
  match b with
  | 33 :: name =>
    match Bytes.toString? name with
    | some name => .own name
    | none => .unnamed
  | _ =>
    if b = coreLead ++ Bytes.ofString "bool" then .bool
    else if b = coreLead ++ Bytes.ofString "int" then .int
    else if b = coreLead ++ Bytes.ofString "float" then .float
    else if b = coreLead ++ Bytes.ofString "null" then .null
    else .other

namespace Yaml

/-- A character of a tag. -/
def isTagChar (c : Char) : Bool :=
  isNameChar c || ";/?:@&=+$.%!~*'()".toList.contains c

/-- A character of a tag in brackets or of the leading bytes of a handle. -/
def isTagCharOrMark (c : Char) : Bool :=
  isTagChar c || c = ',' || c = '[' || c = ']'

/-- The byte whose code is written next. -/
def codedByte? : List Char → Option UInt8
  | '%' :: a :: b :: _ => (Text.readNat? 16 [a, b]).map UInt8.ofNat
  | _ => none

/-- The number of bytes of a character whose first byte is given. -/
def widthOf? (first : UInt8) : Option Nat :=
  if first < 0x80 then some 1
  else if 0xc0 ≤ first ∧ first < 0xe0 then some 2
  else if 0xe0 ≤ first ∧ first < 0xf0 then some 3
  else if 0xf0 ≤ first ∧ first < 0xf8 then some 4
  else none

/-- Reads the codes of some bytes that go on with a character. -/
def codedTail? : Nat → List Char → Option Bytes
  | 0, _ => some []
  | count + 1, s => do
    let b ← codedByte? s
    if 0x80 ≤ b ∧ b < 0xc0 then return b :: (← codedTail? count (s.drop 3)) else none

/-- Reads the codes of the bytes of a character. -/
def codedChar? (s : List Char) : Option Bytes := do
  let first ← codedByte? s
  return first :: (← codedTail? ((← widthOf? first) - 1) (s.drop 3))

/-- Reads the characters of a tag or a part of it; gives their bytes and the number of characters.
-/
def readTagChars (isPart : Char → Bool) : Nat → List Char → Option (Bytes × Nat)
  | 0, _ => some ([], 0)
  | fuel + 1, s =>
    match s with
    | [] => some ([], 0)
    | c :: rest =>
      if !isPart c then some ([], 0)
      else if c = '%' then do
        let coded ← codedChar? s
        let width := 3 * coded.length
        let (more, length) ← readTagChars isPart fuel (s.drop width)
        return (coded ++ more, width + length)
      else do
        let (more, length) ← readTagChars isPart fuel rest
        return (c.toUInt8 :: more, length + 1)

/-- The bytes of the characters of a tag, of which there must be some, and their number. A null
character ends the bytes. -/
def tagCharsAt (isPart : Char → Bool) (c : Cursor) : Option (Bytes × Cursor) := do
  let (bytes, length) ← readTagChars isPart c.left c.rest
  if length = 0 then none else return (bytes.takeWhile (· ≠ 0), c.skip length)

/-- A tag as it is written: the bytes as they stand, or those that follow a handle. -/
inductive WrittenTag where
  /-- All bytes. -/
  | whole (bytes : Bytes)
  /-- A handle and the bytes after it. -/
  | short (handle : String) (bytes : Bytes)
  deriving DecidableEq, Repr

/-- The tag of some bytes without a handle of a name: they follow the exclamation mark. -/
def WrittenTag.plain (bytes : Bytes) : WrittenTag :=
  if bytes.isEmpty then .whole (Bytes.ofString "!") else .short "!" bytes

/-- The tag at a place, where an exclamation mark stands. -/
def tagAt (c : Cursor) : Option (WrittenTag × Cursor) :=
  match c.rest with
  | '!' :: '<' :: _ => do
    let (bytes, c) ← tagCharsAt isTagCharOrMark (c.skip 2)
    if c.next? = some '>' then return (.whole bytes, c.skip 1) else none
  | _ =>
    let name := (c.rest.drop 1).takeWhile isNameChar
    let after := c.skip (name.length + 1)
    if after.next? = some '!' then do
      let (bytes, c) ← tagCharsAt isTagChar (after.skip 1)
      return (.short (String.ofList ('!' :: name ++ ['!'])) bytes, c)
    else do
      let (bytes, length) ← readTagChars isTagChar after.left after.rest
      let named := Bytes.ofString (String.ofList name) ++ bytes.takeWhile (· ≠ 0)
      return (.plain named, after.skip length)

/-- The handle at a place, in instructions: `!`, or a name between two marks. -/
def handleAt (c : Cursor) : Option (String × Cursor) :=
  match c.rest with
  | '!' :: rest =>
    let name := rest.takeWhile isNameChar
    let after := c.skip (name.length + 1)
    if after.next? = some '!' then
      some (String.ofList ('!' :: name ++ ['!']), after.skip 1)
    else if name.isEmpty then some ("!", after)
    else none
  | _ => none

/-- The leading bytes that handles stand for. -/
abbrev Leads := List (String × Bytes)

/-- The leading bytes that hold unless others are chosen. -/
def Leads.usual : Leads :=
  [("!", Bytes.ofString "!"), ("!!", Tag.coreLead)]

/-- The tag that a written tag stands for; its handle must be known. -/
def WrittenTag.resolve? (leads : Leads) : WrittenTag → Option Tag
  | .whole bytes => some (.ofBytes bytes)
  | .short handle bytes =>
    ((leads ++ Leads.usual).lookup handle).map fun lead => .ofBytes (lead ++ bytes)

end Yaml

end TestChain
