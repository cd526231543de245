import TestChain.Codec.Basic

/-!
# Records

A `Fields` describes the fields of a record: how each is written and decoded and what stands for one
that is missing. `Codec.record` writes a record as an object with its fields in order. It decodes an
object, whose unknown members are passed over and in which no field may come twice, and also an
array of the fields' values in order.
-/

namespace TestChain

/-- The description of the fields of a record. -/
structure Fields (α : Type) where
  /-- The values found so far. -/
  Slots : Type
  /-- No value found. -/
  empty : Slots
  /-- The names of the fields. -/
  names : List String
  /-- Decodes the value of the field of the given name and keeps it. -/
  put : String → Node → Slots → Decoding Slots
  /-- The record, once all members are read. -/
  finish : Slots → Decoding α
  /-- Decodes the fields from a sequence of values; gives the values left over. -/
  take : List Node → Decoding (α × List Node)
  /-- The members of the written record. -/
  write : α → List (String × Json)

namespace Fields

/-- One field. `missing` stands for it in an object without it, and `short` in an array that ends
before it; `hidden` says when it is not written. -/
def single {α : Type} (name : String) (c : Codec α) (missing short : Option α) (hidden : α → Bool) :
    Fields α where
  Slots := Option α
  empty := none
  names := [name]
  put _ n found :=
    match found with
    | some _ => throw .malformed
    | none => some <$> c.decode n
  finish found :=
    match found.or missing with
    | some a => return a
    | none => throw .malformed
  take
    | n :: rest => do
      let a ← c.decode n
      return (a, rest)
    | [] =>
      match short with
      | some a => return (a, [])
      | none => throw .malformed
  write a := if hidden a then [] else [(name, c.encode a)]

/-- A field that must be there. -/
def required {α : Type} (name : String) (c : Codec α) : Fields α :=
  single name c none none fun _ => false

/-- A field with a value that stands for it when it is missing. -/
def defaulted {α : Type} (name : String) (c : Codec α) (value : α) : Fields α :=
  single name c (some value) (some value) fun _ => false

/-- A field whose value may be absent; an object may leave it out. -/
def optional {α : Type} (name : String) (c : Codec α) : Fields (Option α) :=
  single name c.option (some none) none fun _ => false

/-- No fields. -/
def none : Fields Unit where
  Slots := Unit
  empty := ()
  names := []
  put _ _ _ := throw .malformed
  finish _ := return ()
  take rest := return ((), rest)
  write _ := []

/-- The fields of two descriptions, in order. -/
def and {α β : Type} (f : Fields α) (g : Fields β) : Fields (α × β) where
  Slots := f.Slots × g.Slots
  empty := (f.empty, g.empty)
  names := f.names ++ g.names
  put name n s :=
    if f.names.contains name then do
      return (← f.put name n s.1, s.2)
    else do
      return (s.1, ← g.put name n s.2)
  finish s := do
    let a ← f.finish s.1
    let b ← g.finish s.2
    return (a, b)
  take nodes := do
    let (a, nodes) ← f.take nodes
    let (b, nodes) ← g.take nodes
    return ((a, b), nodes)
  write p := f.write p.1 ++ g.write p.2

/-- The fields of a record that is made from the described values. -/
def map {α β : Type} (f : Fields α) (make : α → β) (view : β → α) : Fields β where
  Slots := f.Slots
  empty := f.empty
  names := f.names
  put := f.put
  finish s := make <$> f.finish s
  take nodes := do
    let (a, nodes) ← f.take nodes
    return (make a, nodes)
  write b := f.write (view b)

/-- The name that a key gives, whether a field has it or not. A number names the field at its place.
-/
def nameOf (names : List String) (k : Node) : Decoding String := do
  match ← k.content with
  | .num (.whole i _) => if 0 ≤ i then return names.getD i.toNat "" else throw .malformed
  | k => k.text

/-- Decodes members into the slots, in the order of the text. -/
def fill {α : Type} (f : Fields α) : f.Slots → List (Node × Node) → Decoding f.Slots
  | s, [] => return s
  | s, (k, n) :: rest => do
    let name ← nameOf f.names k
    if f.names.contains name then
      let s ← f.put name n s
      f.fill s rest
    else
      n.skip
      f.fill s rest

/-- Decodes a record. A bare word of no characters is an object without members. -/
def decode {α : Type} (f : Fields α) (n : Node) : Decoding α := do
  match ← n.content with
  | .map members origin =>
    origin.within do
      let s ← f.fill f.empty members
      origin.close
      f.finish s
  | .seq items origin =>
    -- Records are not written as sequences in YAML.
    if origin = .yaml then throw .malformed
    origin.within do
      let (a, rest) ← f.take items
      origin.close
      if rest.isEmpty then return a else throw .malformed
  -- An empty scalar is a record without members.
  | .plain "" => f.finish f.empty
  | _ => throw .malformed

end Fields

/-- Records, written as objects. -/
def Codec.record {α : Type} (f : Fields α) : Codec α where
  encode a := .obj (f.write a)
  decode := f.decode

end TestChain
