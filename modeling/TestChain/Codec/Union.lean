import TestChain.Codec.Record

/-!
# Tagged unions

A tagged union is a choice of records; the member with the tag's name says which. Decoding reads the
whole value first, so that the tag may stand anywhere, and settles the type of every scalar; an
array has the tag as its first item. A `Variant` is one of the choices.
-/

namespace TestChain

/-- One choice of a tagged union. -/
structure Variant (α : Type) where
  /-- The tag that selects it. -/
  tag : String
  /-- Decodes the rest of the value. -/
  decode : Node → Decoding α

namespace Variant

/-- A choice with fields. -/
def record {α β : Type} (tag : String) (f : Fields β) (make : β → α) : Variant α where
  tag := tag
  decode n := make <$> f.decode n

/-- Decodes what goes with a choice without fields: any members, but no items. -/
def decodeBare : Node → Decoding Unit
  | .map _ _ => return ()
  | .seq [] _ => return ()
  | _ => throw .malformed

/-- A choice without fields. -/
def bare {α : Type} (tag : String) (value : α) : Variant α where
  tag := tag
  decode n := (fun _ => value) <$> decodeBare n

/-- The choice that a tag selects. -/
def find? {α : Type} (variants : List (Variant α)) (tag : String) : Option (Variant α) :=
  variants.find? fun v => v.tag = tag

end Variant

namespace Codec

/-- Whether a settled key names the tag. -/
def isTag (tagName : String) : Node → Bool
  | .str name => name = tagName
  | _ => false

/-- Splits the members into the text of the tag, once it is found, and the rest. -/
def splitTag (tagName : String) :
    Option String → List (Node × Node) → Decoding (Option String × List (Node × Node))
  | found, [] => return (found, [])
  | found, (k, n) :: rest => do
    let key := Node.settledKey k (← k.buffered)
    if isTag tagName key then
      if found.isSome then throw .malformed
      let tag ← n.text
      splitTag tagName (some tag) rest
    else
      let m ← n.buffered
      let (found, members) ← splitTag tagName found rest
      return (found, (key, m) :: members)

/-- The tag of a union's value, and the value without it. -/
def takeTag (tagName : String) : Node → Decoding (String × Node)
  | .map members origin => do
    let (found, rest) ← splitTag tagName none members
    origin.close
    match found with
    | some tag => return (tag, .map rest .value)
    | none => throw .malformed
  | .seq (first :: items) origin => do
    let tag ← first.text
    -- What is kept for later no longer remembers how it was written.
    let items ← Node.bufferedItems items
    origin.close
    return (tag, .seq items .value)
  | .tagged tag body => if tag.isOwn then throw .malformed else takeTag tagName body
  | _ => throw .malformed

/-- Decodes a tagged union. -/
def decodeUnion {α : Type} (tagName : String) (variants : List (Variant α)) (n : Node) :
    Decoding α := do
  let (tag, rest) ← takeTag tagName (← n.reached)
  match Variant.find? variants tag with
  | some v => v.decode rest
  | none => throw .malformed

/-- Tagged unions; `write` gives the tag and the members of a value. -/
def union {α : Type} (tagName : String) (variants : List (Variant α))
    (write : α → String × List (String × Json)) : Codec α where
  encode a := .obj ((tagName, .str (write a).1) :: (write a).2)
  decode := decodeUnion tagName variants

end Codec

end TestChain
