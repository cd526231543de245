import TestChain.Proofs.Bytes.Framed
import TestChain.Proofs.Store.Root

/-!
# The root identifies the entries

The bytes that the root of a store is the hash of are the committed keys and values in order, each
behind its length. There is no count of the entries, and none is needed: an entry is never empty,
and it is told from what follows it (`entryBytes_append_inj`), so the entries are told from the
bytes (`flatMap_entryBytes_inj`). As entries with the same values are the same entries, two stores
hash the same bytes exactly when the same values are committed in both, whatever was done to get
there (`preimage_eq_iff`).
-/

namespace TestChain.Store

/-- An entry as bytes, with the lengths of its key and its value in front. -/
def entryBytes (e : Bytes × Bytes) : Bytes :=
  lengthFirst e.1 ++ lengthFirst e.2

/-- The lengths of the key and of the value fit in the eight bytes that they are written in. -/
def Measured (e : Bytes × Bytes) : Prop :=
  e.1.length < UInt64.size ∧ e.2.length < UInt64.size

/-- A byte string behind its length in eight bytes is told from what follows it. -/
theorem lengthFirst_append_inj {a b r s : Bytes} (ha : a.length < UInt64.size)
    (hb : b.length < UInt64.size) (h : lengthFirst a ++ r = lengthFirst b ++ s) :
    a = b ∧ r = s := by
  have size : UInt64.size = 256 ^ 8 := by decide
  exact Bytes.framed_append_inj (size ▸ ha) (size ▸ hb) h

/-- An entry is told from what follows it. -/
theorem entryBytes_append_inj {e f : Bytes × Bytes} {r s : Bytes} (he : Measured e)
    (hf : Measured f) (h : entryBytes e ++ r = entryBytes f ++ s) : e = f ∧ r = s := by
  unfold entryBytes at h
  rw [List.append_assoc, List.append_assoc] at h
  obtain ⟨key, h⟩ := lengthFirst_append_inj he.1 hf.1 h
  obtain ⟨value, rest⟩ := lengthFirst_append_inj he.2 hf.2 h
  exact ⟨Prod.ext key value, rest⟩

/-- Something is written for every entry. -/
theorem entryBytes_append_ne_nil (e : Bytes × Bytes) (r : Bytes) : entryBytes e ++ r ≠ [] := by
  have front : 0 < (entryBytes e ++ r).length := by
    unfold entryBytes lengthFirst
    simp only [List.length_append, Bytes.length_bigEndian]
    omega
  exact List.ne_nil_of_length_pos front

/-- Entries are told from their bytes, one after the other. -/
theorem flatMap_entryBytes_inj {l m : List (Bytes × Bytes)} (hl : ∀ e ∈ l, Measured e)
    (hm : ∀ e ∈ m, Measured e) (h : l.flatMap entryBytes = m.flatMap entryBytes) : l = m := by
  induction l generalizing m with
  | nil =>
    cases m with
    | nil => rfl
    | cons f m => exact absurd h.symm (entryBytes_append_ne_nil f _)
  | cons e l ih =>
    cases m with
    | nil => exact absurd h (entryBytes_append_ne_nil e _)
    | cons f m =>
      rw [List.flatMap_cons, List.flatMap_cons] at h
      obtain ⟨first, rest⟩ :=
        entryBytes_append_inj (hl e List.mem_cons_self) (hm f List.mem_cons_self) h
      rw [first, ih (fun g hg => hl g (List.mem_cons_of_mem _ hg))
        (fun g hg => hm g (List.mem_cons_of_mem _ hg)) rest]

/-- All committed entries are measured. -/
def CommitsMeasured (s : Store) : Prop :=
  ∀ e ∈ s.committed.toList, Measured e

instance (s : Store) : Decidable s.CommitsMeasured :=
  inferInstanceAs (Decidable (∀ e ∈ s.committed.toList, e.1.length < _ ∧ e.2.length < _))

/-- Two stores hash the same bytes exactly when the same values are committed in both. -/
theorem preimage_eq_iff {s t : Store} (hs : s.CommitsMeasured) (ht : t.CommitsMeasured) :
    preimage s.committed = preimage t.committed ↔ ∀ k, s.getCommitted? k = t.getCommitted? k := by
  constructor
  · intro h k
    have entries : s.committed.toList = t.committed.toList := flatMap_entryBytes_inj hs ht h
    unfold getCommitted? Entries.get?
    rw [entries]
  · intro h
    rw [Entries.ext h]

/-- The same values are committed in two stores that were fresh once exactly when the operations on
them replay to the same finite map. -/
theorem getCommitted?_eq_iff (ops₁ ops₂ : List Op) :
    (∀ k, (afterAll ops₁ fresh).getCommitted? k = (afterAll ops₂ fresh).getCommitted? k) ↔
      (History.of ops₁).base = (History.of ops₂).base := by
  have read₁ := (follows_afterAll ops₁).committed
  have read₂ := (follows_afterAll ops₂).committed
  constructor
  · exact fun h => Finmap.ext_lookup fun k => by rw [← read₁, ← read₂, h]
  · exact fun h k => by rw [read₁, read₂, h]

/-- After two runs that end in a commit, each root is the hash of bytes that are the same for both
stores exactly when the same values are committed in both, that is, when the operations replay to
the same finite map, whatever their order and however they are divided by commits. -/
theorem root_identifies_content (ops₁ ops₂ : List Op) :
    let s := afterAll (ops₁ ++ [.commit]) fresh
    let t := afterAll (ops₂ ++ [.commit]) fresh
    s.CommitsMeasured → t.CommitsMeasured →
      s.root = .of (preimage s.committed) ∧ t.root = .of (preimage t.committed) ∧
        (preimage s.committed = preimage t.committed ↔
          ∀ k, s.getCommitted? k = t.getCommitted? k) ∧
        (preimage s.committed = preimage t.committed ↔
          (History.of (ops₁ ++ [.commit])).base = (History.of (ops₂ ++ [.commit])).base) := by
  intro s t hs ht
  have rooted : ∀ ops : List Op, (afterAll (ops ++ [.commit]) fresh).Rooted := fun ops =>
    (rooted_afterAll_iff _).2 (List.mem_append_right ops List.mem_cons_self)
  have bytes := preimage_eq_iff hs ht
  exact ⟨rooted ops₁, rooted ops₂, bytes, bytes.trans (getCommitted?_eq_iff _ _)⟩

/-- Two entries that are written at once and committed, and the same entries written one after the
other, with a commit between them and a value that does not last, are hashed as the same bytes. -/
theorem root_of_other_batches :
    let s := afterAll ([.set [1] [2, 3], .set [1, 2] [3]] ++ [.commit]) fresh
    let t := afterAll
      ([.set [1, 2] [4], .commit, .set [1] [2, 3], .set [5] [], .discard, .set [1, 2] [3],
        .set [1] [2, 3]] ++ [.commit]) fresh
    s.CommitsMeasured ∧ t.CommitsMeasured ∧ preimage s.committed = preimage t.committed := by
  intro s t
  have hs : s.CommitsMeasured := by decide
  have ht : t.CommitsMeasured := by decide
  have same : s.committed.toList = t.committed.toList := by decide
  refine ⟨hs, ht, (root_identifies_content _ _ hs ht).2.2.1.2 fun k => ?_⟩
  show Entries.find? k s.committed.toList = Entries.find? k t.committed.toList
  rw [same]

end TestChain.Store
