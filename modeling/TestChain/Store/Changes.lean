import TestChain.Store.Entries

/-!
# Changes

`Changes` is a batch of writes and deletions that are not committed yet, at most one to a key: a
later one takes the place of an earlier one. `Changes.applyTo` carries the batch out on committed
entries.
-/

namespace TestChain

/-- How a batch of changes stands to a key. -/
inductive Standing where
  /-- The batch writes a value. -/
  | stored (value : Bytes)
  /-- The batch deletes the key. -/
  | deleted
  /-- The batch leaves the key alone. -/
  | absent
  deriving DecidableEq, Repr

/-- A batch of changes: the new value of each key, or none for a deletion. -/
structure Changes where
  /-- The keys and their new values. -/
  writes : Entries (Option Bytes)

namespace Changes

/-- The batch without changes. -/
def empty : Changes := ⟨.empty⟩

instance : Inhabited Changes := ⟨empty⟩

/-- How the batch stands to a key. -/
def get (c : Changes) (k : Bytes) : Standing :=
  match c.writes.get? k with
  | some (some v) => .stored v
  | some none => .deleted
  | none => .absent

/-- The batch with a value written. -/
def insert (c : Changes) (k v : Bytes) : Changes :=
  ⟨c.writes.put k (some v)⟩

/-- The batch with a key deleted. -/
def remove (c : Changes) (k : Bytes) : Changes :=
  ⟨c.writes.put k none⟩

/-- The number of keys that the batch changes. -/
def size (c : Changes) : Nat :=
  c.writes.size

/-- Whether the batch changes nothing. -/
def isEmpty (c : Changes) : Bool :=
  c.writes.isEmpty

/-- The changes to keys that begin with some bytes. -/
def startingWith (c : Changes) (lead : Bytes) : Changes :=
  ⟨c.writes.startingWith lead⟩

/-- Carries out one change. -/
def apply (m : Entries Bytes) (change : Bytes × Option Bytes) : Entries Bytes :=
  match change.2 with
  | some v => m.put change.1 v
  | none => m.erase change.1

/-- The entries after all changes of the batch. -/
def applyTo (c : Changes) (m : Entries Bytes) : Entries Bytes :=
  c.writes.toList.foldl apply m

/-- A written value is in the batch; other keys stand as before. -/
theorem get_insert (c : Changes) (k j v : Bytes) :
    (c.insert k v).get j = if k = j then .stored v else c.get j := by
  unfold insert get
  by_cases h : k = j <;> simp [h]

/-- A deleted key is deleted in the batch; other keys stand as before. -/
theorem get_remove (c : Changes) (k j : Bytes) :
    (c.remove k).get j = if k = j then .deleted else c.get j := by
  unfold remove get
  by_cases h : k = j <;> simp [h]

/-- One change has its effect on its key alone. -/
theorem get?_apply (m : Entries Bytes) (change : Bytes × Option Bytes) (k : Bytes) :
    (apply m change).get? k = if change.1 = k then change.2 else m.get? k := by
  obtain ⟨j, v⟩ := change
  cases v <;> simp [apply]

/-- Changes to other keys leave a key alone. -/
theorem get?_foldl_apply_of_ne (l : List (Bytes × Option Bytes)) (m : Entries Bytes) (k : Bytes)
    (h : ∀ e ∈ l, e.1 ≠ k) : (l.foldl apply m).get? k = m.get? k := by
  induction l generalizing m with
  | nil => rfl
  | cons e rest ih =>
    rw [List.foldl_cons, ih _ fun f hf => h f (List.mem_cons_of_mem _ hf), get?_apply,
      if_neg (h e List.mem_cons_self)]

/-- A key has the value that the batch writes, none if the batch deletes it, and else its committed
value. -/
theorem get?_applyTo (c : Changes) (m : Entries Bytes) (k : Bytes) :
    (c.applyTo m).get? k =
      match c.get k with
      | .stored v => some v
      | .deleted => none
      | .absent => m.get? k := by
  obtain ⟨⟨l, hl⟩⟩ := c
  unfold applyTo get Entries.get?
  dsimp only
  change (l.foldl apply m).get? k = _
  induction l generalizing m with
  | nil => rfl
  | cons e rest ih =>
    obtain ⟨he, hrest⟩ := List.pairwise_cons.1 hl
    rw [List.foldl_cons]
    by_cases hk : e.1 = k
    · subst hk
      have other : ∀ f ∈ rest, f.1 ≠ e.1 := fun f hf h =>
        List.lt_irrefl e.1 (by simpa [h] using he f hf)
      rw [get?_foldl_apply_of_ne rest _ _ other, get?_apply, if_pos rfl]
      simp only [Entries.find?, if_true]
      cases e.2 <;> rfl
    · rw [ih (apply m e) hrest]
      simp only [Entries.find?, hk, if_false]
      split
      · rfl
      · rfl
      · exact (get?_apply m e k).trans (if_neg hk)

end Changes

end TestChain
