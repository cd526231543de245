import TestChain.Bytes

/-!
# Ordered entries

`Entries` is a finite map from byte strings, held as a list in strictly increasing order of its
keys. `get?_put` and `get?_erase` say what a change does to the values found, and `ext` that the
values found determine the entries.
-/

namespace TestChain

/-- Entries in strictly increasing order of their keys. -/
structure Entries (α : Type) where
  /-- The keys and their values, in order. -/
  toList : List (Bytes × α)
  /-- The keys are strictly increasing. -/
  sorted : toList.Pairwise fun a b => a.1 < b.1

namespace Entries

variable {α : Type}

/-- No entries. -/
def empty : Entries α := ⟨[], .nil⟩

instance : Inhabited (Entries α) := ⟨empty⟩

/-- The value of a key in a list of entries. -/
def find? (k : Bytes) : List (Bytes × α) → Option α
  | [] => none
  | (j, a) :: rest => if j = k then some a else find? k rest

/-- The value of a key. -/
def get? (m : Entries α) (k : Bytes) : Option α :=
  find? k m.toList

/-- Whether there is an entry of a key. -/
def contains (m : Entries α) (k : Bytes) : Bool :=
  (m.get? k).isSome

/-- The number of entries. -/
def size (m : Entries α) : Nat :=
  m.toList.length

/-- Whether there are no entries. -/
def isEmpty (m : Entries α) : Bool :=
  m.toList.isEmpty

/-- Puts an entry at its place in a list of entries, or in place of the one of its key. -/
def insert (k : Bytes) (a : α) : List (Bytes × α) → List (Bytes × α)
  | [] => [(k, a)]
  | (j, b) :: rest =>
    if k < j then (k, a) :: (j, b) :: rest
    else if k = j then (k, a) :: rest
    else (j, b) :: insert k a rest

/-- An entry of the list after `insert` is the new one or an old one. -/
theorem mem_insert {k : Bytes} {a : α} {l : List (Bytes × α)} {e : Bytes × α}
    (h : e ∈ insert k a l) : e = (k, a) ∨ e ∈ l := by
  induction l with
  | nil => simpa [insert] using h
  | cons f rest ih =>
    simp only [insert] at h
    split at h
    · simpa using h
    · split at h
      · rcases List.mem_cons.1 h with h | h
        · exact .inl h
        · exact .inr (List.mem_cons_of_mem _ h)
      · rcases List.mem_cons.1 h with h | h
        · exact .inr (h ▸ List.mem_cons_self)
        · exact (ih h).imp id (List.mem_cons_of_mem _)

/-- Of two keys that differ one is before the other. -/
theorem eq_of_not_lt {j k : Bytes} (h : ¬j < k) (h' : ¬k < j) : j = k :=
  Std.Trichotomous.trichotomous j k h h'

/-- `insert` keeps the order. -/
theorem pairwise_insert {k : Bytes} {a : α} {l : List (Bytes × α)}
    (h : l.Pairwise fun a b => a.1 < b.1) :
    (insert k a l).Pairwise fun a b => a.1 < b.1 := by
  induction l with
  | nil => simp [insert]
  | cons f rest ih =>
    obtain ⟨hf, hrest⟩ := List.pairwise_cons.1 h
    simp only [insert]
    split
    · rename_i hk
      refine List.pairwise_cons.2 ⟨fun e he => ?_, h⟩
      rcases List.mem_cons.1 he with rfl | he
      · exact hk
      · exact List.lt_trans hk (hf e he)
    · rename_i hlt
      split
      · rename_i hk
        exact List.pairwise_cons.2 ⟨fun e he => hk ▸ hf e he, hrest⟩
      · rename_i hne
        refine List.pairwise_cons.2 ⟨fun e he => ?_, ih hrest⟩
        rcases mem_insert he with rfl | he
        · exact Decidable.byContradiction fun hfk =>
            hne (eq_of_not_lt hlt hfk)
        · exact hf e he

/-- The entries with one put at its place, or in place of the one of its key. -/
def put (m : Entries α) (k : Bytes) (a : α) : Entries α :=
  ⟨insert k a m.toList, pairwise_insert m.sorted⟩

/-- The entries without the one of a key. -/
def erase (m : Entries α) (k : Bytes) : Entries α :=
  ⟨m.toList.filter fun e => e.1 ≠ k, m.sorted.filter _⟩

/-- The entries from some bytes on, as far as their keys begin with these bytes. -/
def startingWith (m : Entries α) (lead : Bytes) : Entries α where
  toList := (m.toList.dropWhile fun e => e.1 < lead).takeWhile fun e => lead.isPrefixOf e.1
  sorted :=
    m.sorted.sublist <|
      (List.takeWhile_sublist _).trans (List.dropWhile_sublist _)

/-- There are no values in no entries. -/
@[simp]
theorem get?_empty (k : Bytes) : (empty : Entries α).get? k = none := rfl

/-- `insert` changes the value of its key alone. -/
theorem find?_insert (k j : Bytes) (a : α) (l : List (Bytes × α)) :
    find? j (insert k a l) = if k = j then some a else find? j l := by
  induction l with
  | nil => rfl
  | cons f rest ih =>
    simp only [insert]
    split
    · rfl
    · split
      · rename_i hk
        subst hk
        by_cases hj : f.1 = j <;> simp [find?, hj]
      · rename_i hne
        simp only [find?, ih]
        by_cases hf : f.1 = j
        · subst hf; simp [hne]
        · simp [hf]

/-- Putting an entry changes the value of its key alone. -/
@[simp]
theorem get?_put (m : Entries α) (k j : Bytes) (a : α) :
    (m.put k a).get? j = if k = j then some a else m.get? j :=
  find?_insert k j a m.toList

/-- Removing an entry changes the value of its key alone. -/
@[simp]
theorem get?_erase (m : Entries α) (k j : Bytes) :
    (m.erase k).get? j = if k = j then none else m.get? j := by
  unfold erase get?
  dsimp only
  induction m.toList with
  | nil => simp [find?]
  | cons f rest ih =>
    by_cases hf : f.1 = k
    · subst hf
      simp only [ne_eq, not_true_eq_false, decide_false, Bool.false_eq_true, not_false_eq_true,
        List.filter_cons_of_neg, find?, ih]
      split <;> rfl
    · simp only [ne_eq, hf, not_false_eq_true, decide_true, List.filter_cons_of_pos, find?, ih]
      by_cases hj : f.1 = j
      · subst hj; simp [Ne.symm hf]
      · simp [hj]

/-- A key is found in a list exactly if it has an entry there. -/
theorem find?_eq_none_iff {k : Bytes} {l : List (Bytes × α)} :
    find? k l = none ↔ ∀ e ∈ l, e.1 ≠ k := by
  induction l with
  | nil => simp [find?]
  | cons f rest ih =>
    by_cases hf : f.1 = k <;> simp [find?, hf, ih]

/-- Keys in order are not found behind an entry of a greater key. -/
theorem find?_eq_none_of_lt {k : Bytes} {l : List (Bytes × α)} (h : ∀ e ∈ l, k < e.1) :
    find? k l = none :=
  find?_eq_none_iff.2 fun e he hk => List.lt_irrefl k (hk ▸ h e he)

/-- The first key of a list in order is no greater than that of one with the same values. -/
theorem not_lt_of_find?_eq {e f : Bytes × α} {l m : List (Bytes × α)}
    (hm : (f :: m).Pairwise fun a b => a.1 < b.1) (h : ∀ k, find? k (e :: l) = find? k (f :: m)) :
    ¬e.1 < f.1 := by
  intro hlt
  obtain ⟨hf, -⟩ := List.pairwise_cons.1 hm
  have none : find? e.1 (f :: m) = none := by
    refine find?_eq_none_of_lt fun g hg => ?_
    rcases List.mem_cons.1 hg with rfl | hg
    · exact hlt
    · exact List.lt_trans hlt (hf g hg)
  have found := h e.1
  rw [none, find?, if_pos rfl] at found
  cases found

/-- Lists in order with the same values of all keys are equal. -/
theorem eq_of_find?_eq {l m : List (Bytes × α)} (hl : l.Pairwise fun a b => a.1 < b.1)
    (hm : m.Pairwise fun a b => a.1 < b.1) (h : ∀ k, find? k l = find? k m) : l = m := by
  induction l generalizing m with
  | nil =>
    cases m with
    | nil => rfl
    | cons f rest => simpa [find?] using h f.1
  | cons e l ih =>
    cases m with
    | nil => simpa [find?] using h e.1
    | cons f m =>
      have key : e.1 = f.1 :=
        eq_of_not_lt (not_lt_of_find?_eq hm h) (not_lt_of_find?_eq hl fun k => (h k).symm)
      obtain ⟨he, hl⟩ := List.pairwise_cons.1 hl
      obtain ⟨hf, hm⟩ := List.pairwise_cons.1 hm
      have value : e.2 = f.2 := by
        have := h e.1
        simpa [find?, key] using this
      have rest : l = m := by
        refine ih hl hm fun k => ?_
        by_cases hk : e.1 = k
        · subst hk
          rw [find?_eq_none_of_lt he, find?_eq_none_of_lt fun g hg => key ▸ hf g hg]
        · have := h k
          simpa [find?, hk, key ▸ hk] using this
      rw [rest, Prod.ext key value]

/-- Entries with the same values of all keys are equal. -/
theorem ext {l m : Entries α} (h : ∀ k, l.get? k = m.get? k) : l = m := by
  obtain ⟨l, hl⟩ := l
  obtain ⟨m, hm⟩ := m
  congr 1
  exact eq_of_find?_eq hl hm h

end Entries

end TestChain
