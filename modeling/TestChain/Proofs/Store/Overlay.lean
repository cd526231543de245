import Mathlib.Data.Finmap
import TestChain.Proofs.Store.Scan

/-!
# A store as two finite maps

What is done to a store is written down in a `History`: the changes up to the last commit, and those
that are pending since then. Replayed on the empty finite map, the former give what is committed,
and both together what is visible. `refines_overlay` says that every way of reading a store which
was fresh once agrees with these two maps, whatever was done to it: reading a key in either layer,
counting, and scanning. The induction is over the operations, and `Follows` is what each of them
keeps.
-/

namespace TestChain

/-- After an entry is put there is one. -/
theorem Entries.isEmpty_put {α : Type} (m : Entries α) (k : Bytes) (a : α) :
    (m.put k a).isEmpty = false := by
  unfold isEmpty
  rw [List.isEmpty_eq_false_iff]
  intro hnil
  have found := get?_put m k k a
  unfold get? at found
  rw [hnil, if_pos rfl] at found
  cases found

namespace Store

/-- Without its changes a store has the committed values. -/
theorem get?_discard (s : Store) (k : Bytes) : s.discard.get? k = s.committed.get? k := rfl

/-! ## Operations -/

/-- An operation on a store. -/
inductive Op where
  /-- A value is written. -/
  | set (k v : Bytes)
  /-- A key is deleted. -/
  | delete (k : Bytes)
  /-- The changes are committed. -/
  | commit
  /-- The changes are dropped. -/
  | discard
  deriving DecidableEq

/-- The store after an operation. -/
def Op.next : Op → Store → Store
  | .set k v, s => s.set k v
  | .delete k, s => s.delete k
  | .commit, s => s.commit
  | .discard, s => s.discard

/-- The store after some operations in order. -/
def afterAll (ops : List Op) (s : Store) : Store :=
  ops.foldl (fun s op => op.next s) s

/-- The version counts the commits. -/
theorem version_afterAll (ops : List Op) (s : Store) :
    (afterAll ops s).version = s.version + UInt64.ofNat (ops.count .commit) := by
  induction ops generalizing s with
  | nil => exact (UInt64.add_zero _).symm
  | cons op rest ih =>
    show (afterAll rest (op.next s)).version = _
    rw [ih, List.count_cons]
    cases op with
    | set k v => rfl
    | delete k => rfl
    | commit =>
      show s.version + 1 + UInt64.ofNat (rest.count .commit) =
        s.version + UInt64.ofNat (rest.count .commit + 1)
      rw [UInt64.ofNat_add, UInt64.add_assoc, UInt64.add_comm 1]
      rfl
    | discard => rfl

/-! ## Histories -/

/-- A key with its new value, or with none if it is deleted. -/
abbrev Change := Bytes × Option Bytes

/-- What was done to a store since it was fresh. Changes that were dropped are left out. -/
structure History where
  /-- The changes up to the last commit, in order. -/
  committed : List Change
  /-- The changes since then, in order. -/
  pending : List Change

namespace History

/-- Nothing was done. -/
def empty : History := ⟨[], []⟩

/-- The history with an operation more. -/
def next (h : History) : Op → History
  | .set k v => { h with pending := h.pending ++ [(k, some v)] }
  | .delete k => { h with pending := h.pending ++ [(k, none)] }
  | .commit => ⟨h.committed ++ h.pending, []⟩
  | .discard => { h with pending := [] }

/-- The history of some operations in order. -/
def of (ops : List Op) : History :=
  ops.foldl next empty

/-- The finite map to which changes lead from the empty one. -/
def replay (changes : List Change) : Finmap fun _ : Bytes => Bytes :=
  changes.foldl (fun m c => c.2.elim (m.erase c.1) (m.insert c.1)) ∅

/-- What is committed. -/
def base (h : History) : Finmap fun _ : Bytes => Bytes :=
  replay h.committed

/-- What is visible, pending changes included. -/
def overlay (h : History) : Finmap fun _ : Bytes => Bytes :=
  replay (h.committed ++ h.pending)

/-- One change more has its effect on its key alone. -/
theorem lookup_replay_concat (changes : List Change) (k j : Bytes) (v : Option Bytes) :
    (replay (changes ++ [(k, v)])).lookup j = if k = j then v else (replay changes).lookup j := by
  unfold replay
  rw [List.foldl_append]
  generalize changes.foldl _ _ = m
  show (v.elim (m.erase k) (m.insert k)).lookup j = _
  by_cases hk : k = j
  · subst hk
    rw [if_pos rfl]
    cases v with
    | none => exact Finmap.lookup_erase k m
    | some v => exact Finmap.lookup_insert m
  · rw [if_neg hk]
    cases v with
    | none => exact Finmap.lookup_erase_ne (Ne.symm hk)
    | some v => exact Finmap.lookup_insert_of_ne m (Ne.symm hk)

end History

/-! ## The refinement -/

/-- A store is where a history leads. -/
structure Follows (s : Store) (h : History) : Prop where
  /-- The committed entries are those of the committed changes. -/
  committed : ∀ k, s.getCommitted? k = h.base.lookup k
  /-- Reading sees all changes. -/
  visible : ∀ k, s.get? k = h.overlay.lookup k
  /-- There are pending changes in both or in none. -/
  pending : s.pending.isEmpty = h.pending.isEmpty

/-- A write or a deletion follows its change. -/
theorem Follows.change {s : Store} {h : History} (hf : s.Follows h) (k : Bytes)
    (v : Option Bytes) :
    Follows { s with pending := ⟨s.pending.writes.put k v⟩ }
      { h with pending := h.pending ++ [(k, v)] } := by
  have read : ∀ j, get? { s with pending := ⟨s.pending.writes.put k v⟩ } j =
      if k = j then v else s.get? j := fun j => by
    cases v with
    | none => exact s.get?_delete k j
    | some v => exact s.get?_set k j v
  refine ⟨hf.committed, fun j => ?_, ?_⟩
  · rw [read, hf.visible j]
    unfold History.overlay
    rw [← List.append_assoc, History.lookup_replay_concat]
  · show (s.pending.writes.put k v).isEmpty = (h.pending ++ [(k, v)]).isEmpty
    rw [Entries.isEmpty_put, eq_comm, List.isEmpty_eq_false_iff]
    exact List.append_ne_nil_of_right_ne_nil _ (List.cons_ne_nil _ _)

/-- Every operation on a store follows the one on its history. -/
theorem Follows.next {s : Store} {h : History} (hf : s.Follows h) (op : Op) :
    (op.next s).Follows (h.next op) := by
  cases op with
  | set k v => exact hf.change k (some v)
  | delete k => exact hf.change k none
  | commit =>
    -- What was visible is committed, and nothing lies on top of it.
    have view : ∀ k, s.view.get? k = h.overlay.lookup k := fun k =>
      (s.get?_view k).trans (hf.visible k)
    refine ⟨view, fun k => ?_, rfl⟩
    show s.commit.get? k = (History.replay (h.committed ++ h.pending ++ [])).lookup k
    rw [get?_commit, List.append_nil]
    exact hf.visible k
  | discard =>
    refine ⟨hf.committed, fun k => ?_, rfl⟩
    show s.discard.get? k = (History.replay (h.committed ++ [])).lookup k
    rw [get?_discard, List.append_nil]
    exact hf.committed k

/-- A store that was fresh once is where its history leads. -/
theorem follows_afterAll (ops : List Op) : (afterAll ops fresh).Follows (.of ops) := by
  have start : fresh.Follows .empty := ⟨fun _ => rfl, fun _ => rfl, rfl⟩
  unfold afterAll History.of
  generalize fresh = s, History.empty = h at start
  induction ops generalizing s h with
  | nil => exact start
  | cons op rest ih => exact ih _ _ (start.next op)

/-- Entries with the values of a finite map have its keys, each once. -/
theorem size_eq_card {m : Entries Bytes} {f : Finmap fun _ : Bytes => Bytes}
    (h : ∀ k, m.get? k = f.lookup k) : m.size = f.keys.card := by
  have apart : (m.toList.map Prod.fst).Nodup := by
    refine List.pairwise_map.2 (m.sorted.imp fun hlt heq => ?_)
    rw [heq] at hlt
    exact List.lt_irrefl _ hlt
  have keys : f.keys = (m.toList.map Prod.fst).toFinset := by
    ext k
    rw [Finmap.mem_keys, ← Finmap.lookup_isSome, ← h k, List.mem_toFinset, List.mem_map]
    constructor
    · intro hsome
      obtain ⟨v, hv⟩ := Option.isSome_iff_exists.1 hsome
      exact ⟨(k, v), (Entries.mem_iff_find? m.sorted).2 hv, rfl⟩
    · rintro ⟨⟨j, v⟩, hmem, rfl⟩
      exact Option.isSome_iff_exists.2 ⟨v, (Entries.mem_iff_find? m.sorted).1 hmem⟩
  rw [keys, List.toFinset_card_of_nodup apart, List.length_map]
  rfl

/-- Entries with the values of a finite map are none exactly if it is empty. -/
theorem isEmpty_iff_eq_empty {m : Entries Bytes} {f : Finmap fun _ : Bytes => Bytes}
    (h : ∀ k, m.get? k = f.lookup k) : m.isEmpty = true ↔ f = ∅ := by
  constructor
  · intro hempty
    have nil : m.toList = [] := List.isEmpty_iff.1 hempty
    refine Finmap.ext_lookup fun k => ?_
    rw [← h k, Finmap.lookup_empty]
    unfold Entries.get?
    rw [nil]
    rfl
  · rintro rfl
    have none : m = .empty := Entries.ext fun k => by
      rw [h k, Finmap.lookup_empty, Entries.get?_empty]
    rw [none]
    rfl

/-- A store on which anything was done since it was fresh reads as two finite maps: one to which the
committed changes lead, and one to which all changes lead that were not dropped. A key is read in
the latter, and its committed value in the former, whose size is that of the store; the version is
the number of commits; changes are pending if there are any since the last commit or discard. A scan
gives exactly the visible entries whose keys have the beginning, in strictly increasing order. -/
theorem refines_overlay (ops : List Op) :
    let s := afterAll ops fresh
    let h := History.of ops
    (∀ k, s.get? k = h.overlay.lookup k) ∧
      (∀ k, s.contains k = true ↔ k ∈ h.overlay) ∧
      (∀ k, s.getCommitted? k = h.base.lookup k) ∧
      s.size = h.base.keys.card ∧
      (s.isEmpty = true ↔ h.base = ∅) ∧
      s.version = UInt64.ofNat (ops.count .commit) ∧
      (s.hasPending = true ↔ h.pending ≠ []) ∧
      ∀ lead, (∀ k v, (k, v) ∈ s.scan lead ↔ lead <+: k ∧ h.overlay.lookup k = some v) ∧
        (s.scan lead).Pairwise fun a b => a.1 < b.1 := by
  intro s h
  have hf : s.Follows h := follows_afterAll ops
  refine ⟨hf.visible, fun k => ?_, hf.committed, size_eq_card hf.committed,
    isEmpty_iff_eq_empty hf.committed, ?_, ?_, fun lead => ⟨fun k v => ?_, s.sorted_scan lead⟩⟩
  · rw [← Finmap.lookup_isSome, ← hf.visible k]
    rfl
  · rw [version_afterAll]
    exact UInt64.zero_add _
  · unfold hasPending
    rw [hf.pending, Bool.not_eq_true', List.isEmpty_eq_false_iff]
  · rw [mem_scan_iff, List.isPrefixOf_iff_prefix, hf.visible k]

end Store

end TestChain
