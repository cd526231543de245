import TestChain.Hash
import TestChain.Store.Changes
import TestChain.Text.Utf8

/-!
# The store

A `Store` keeps the state of an application: committed entries and a batch of changes on top of
them. Reading sees the batch first; `commit` folds it into the committed entries and hashes them
(`rootOf`). The view of a store (`Store.view`) is what it would hold after a commit, and `get?_view`
says that reading agrees with it.
-/

namespace TestChain

/-- Committed entries and a batch of changes. -/
structure Store where
  /-- The entries of the last commit. -/
  committed : Entries Bytes
  /-- The changes since then. -/
  pending : Changes
  /-- The number of commits. -/
  version : UInt64
  /-- The hash of the last commit, zero before the first. -/
  root : Hash

namespace Store

/-- The store to which nothing was ever written. -/
def fresh : Store := ⟨.empty, .empty, 0, .zero⟩

instance : Inhabited Store := ⟨fresh⟩

/-! ## Reading and writing -/

/-- The value of a key, changes included. -/
def get? (s : Store) (k : Bytes) : Option Bytes :=
  match s.pending.get k with
  | .stored v => some v
  | .deleted => none
  | .absent => s.committed.get? k

/-- The value of a key at the last commit. -/
def getCommitted? (s : Store) (k : Bytes) : Option Bytes :=
  s.committed.get? k

/-- Whether a key has a value, changes included. -/
def contains (s : Store) (k : Bytes) : Bool :=
  (s.get? k).isSome

/-- The store with a value written. -/
def set (s : Store) (k v : Bytes) : Store :=
  { s with pending := s.pending.insert k v }

/-- The store with a key deleted. -/
def delete (s : Store) (k : Bytes) : Store :=
  { s with pending := s.pending.remove k }

/-- The entries, changes included. -/
def view (s : Store) : Entries Bytes :=
  s.pending.applyTo s.committed

/-- The entries whose keys begin with some bytes, in order, changes included. Of the entries and of
the changes only those with such keys are looked at. -/
def scan (s : Store) (lead : Bytes) : List (Bytes × Bytes) :=
  ((s.pending.startingWith lead).applyTo (s.committed.startingWith lead)).toList

/-- The number of committed entries. -/
def size (s : Store) : Nat :=
  s.committed.size

/-- Whether nothing is committed. -/
def isEmpty (s : Store) : Bool :=
  s.committed.isEmpty

/-- Whether there are changes since the last commit. -/
def hasPending (s : Store) : Bool :=
  !s.pending.isEmpty

/-- The store without its changes. -/
def discard (s : Store) : Store :=
  { s with pending := .empty }

/-! ## The root -/

/-- A byte string with its length, in eight bytes, in front. -/
def lengthFirst (b : Bytes) : Bytes :=
  Bytes.bigEndian 8 b.length ++ b

/-- Entries as the bytes that are hashed: each key and each value with its length in front. -/
def preimage (m : Entries Bytes) : Bytes :=
  m.toList.flatMap fun e => lengthFirst e.1 ++ lengthFirst e.2

/-- The hash of entries. -/
def rootOf (m : Entries Bytes) : Hash :=
  .of (preimage m)

/-- The store with its changes committed. -/
def commit (s : Store) : Store where
  committed := s.view
  pending := .empty
  version := s.version + 1
  root := rootOf s.view

/-- The root that a commit would give; without changes the root as it is. -/
def previewRoot (s : Store) : Hash :=
  if s.pending.isEmpty then s.root else rootOf s.view

/-! ## Typed values -/

/-- Reads a value of a type from its JSON text. -/
def decode {α : Type} (c : Codec α) (v : Bytes) : Except DecodeError α :=
  c.ofChars (Text.ofUtf8 v.pack)

/-- The value of a key as one of a type. -/
def read? {α : Type} (s : Store) (c : Codec α) (k : Bytes) : Except DecodeError (Option α) :=
  match s.get? k with
  | some v => some <$> decode c v
  | none => .ok none

/-- The store with a value of a type written as JSON text. -/
def write {α : Type} (s : Store) (c : Codec α) (k : Bytes) (a : α) : Store :=
  s.set k (Bytes.ofString (c.text a))

/-- The values of the keys that begin with some bytes, as values of a type. -/
def readAll {α : Type} (s : Store) (c : Codec α) (lead : Bytes) : Except DecodeError (List α) :=
  (s.scan lead).mapM fun e => decode c e.2

/-- Reading a store is reading its view. -/
theorem get?_view (s : Store) (k : Bytes) : s.view.get? k = s.get? k :=
  Changes.get?_applyTo s.pending s.committed k

/-- A written value is read; other keys keep their values. -/
theorem get?_set (s : Store) (k j v : Bytes) :
    (s.set k v).get? j = if k = j then some v else s.get? j := by
  unfold get? set
  rw [Changes.get_insert]
  by_cases h : k = j <;> simp [h]

/-- A deleted key has no value; other keys keep theirs. -/
theorem get?_delete (s : Store) (k j : Bytes) :
    (s.delete k).get? j = if k = j then none else s.get? j := by
  unfold get? delete
  rw [Changes.get_remove]
  by_cases h : k = j <;> simp [h]

/-- A commit changes no value. -/
theorem get?_commit (s : Store) (k : Bytes) : s.commit.get? k = s.get? k :=
  s.get?_view k

end Store

end TestChain
