import TestChain.Proofs.Store.Overlay

/-!
# The root of a store

The root of a store is the hash of its committed entries (`Rooted`) from its first commit on. A
preview tells the root that a commit would give, and takes the root as it is where nothing is
pending; that is right exactly where the store is rooted, or something is pending
(`previewRoot_eq_iff`). Before the first commit the root is zero, which is not the hash of no
entries (`rootOf_empty_ne_zero`), so the preview of a store is wrong as long as nothing was
committed and nothing is pending (`previewRoot_eq_root_commit_iff`).
-/

namespace TestChain

/-- A single chunk is the whole tree. -/
theorem Blake3.tree_one (input : ByteArray) (first : Nat) :
    tree input first 1 = leaf input first := by
  rw [tree, dif_neg (by decide)]

namespace Store

/-- The hash of no entries is not zero. -/
theorem rootOf_empty_ne_zero : rootOf .empty ≠ .zero := by
  intro heq
  -- Already the first bytes differ.
  have bytes : (rootOf .empty).bytes[0] = Hash.zero.bytes[0] := by rw [heq]
  have word : (rootOf .empty).bytes[0] =
      ((Blake3.leaf (Bytes.pack []) 0).root[0] >>> (8 * 0 : Nat).toUInt32).toUInt8 := by
    show (Blake3.hashPacked (Bytes.pack []))[0] = _
    unfold Blake3.hashPacked
    rw [Vector.getElem_ofFn]
    show ((Blake3.tree (Bytes.pack []) 0 1).root[0] >>> _).toUInt8 = _
    rw [Blake3.tree_one]
    rfl
  have differ : ((Blake3.leaf (Bytes.pack []) 0).root[0] >>> (8 * 0 : Nat).toUInt32).toUInt8 ≠
      Hash.zero.bytes[0] := by decide +kernel
  exact differ (word.symm.trans bytes)

/-- The root is the hash of the committed entries. -/
def Rooted (s : Store) : Prop :=
  s.root = rootOf s.committed

/-- Without changes the view is what is committed. -/
theorem view_of_isEmpty {s : Store} (h : s.pending.isEmpty = true) : s.view = s.committed := by
  have nil : s.pending.writes.toList = [] := List.isEmpty_iff.1 h
  unfold view Changes.applyTo
  rw [nil]
  rfl

/-- In the bytes that the root of a rooted store is the hash of, each key and each value of the
entries stands behind its length. -/
theorem Rooted.root_eq {s : Store} (h : s.Rooted) :
    s.root = .of (s.committed.toList.flatMap fun e =>
      Bytes.bigEndian 8 e.1.length ++ e.1 ++ (Bytes.bigEndian 8 e.2.length ++ e.2)) := h

/-- A commit leaves a rooted store. -/
theorem rooted_commit (s : Store) : s.commit.Rooted := rfl

/-- A preview tells the root that a commit would give exactly where something is pending or the
store is rooted. -/
theorem previewRoot_eq_iff (s : Store) :
    s.previewRoot = s.commit.root ↔ s.hasPending = true ∨ s.Rooted := by
  unfold previewRoot hasPending
  cases hp : s.pending.isEmpty with
  | true =>
    rw [if_pos rfl, or_iff_right (by decide)]
    show s.root = rootOf s.view ↔ s.root = rootOf s.committed
    rw [view_of_isEmpty hp]
  | false => exact iff_of_true rfl (.inl rfl)

/-- Operations without a commit leave the root and the committed entries. -/
theorem afterAll_of_not_commit {ops : List Op} (h : Op.commit ∉ ops) (s : Store) :
    (afterAll ops s).root = s.root ∧ (afterAll ops s).committed = s.committed := by
  induction ops generalizing s with
  | nil => exact ⟨rfl, rfl⟩
  | cons op rest ih =>
    obtain ⟨hop, hrest⟩ := not_or.1 fun hmem => h (List.mem_cons.2 hmem)
    obtain ⟨root, committed⟩ := ih hrest (op.next s)
    cases op with
    | commit => exact absurd rfl hop
    | set k v => exact ⟨root, committed⟩
    | delete k => exact ⟨root, committed⟩
    | discard => exact ⟨root, committed⟩

/-- Every operation leaves a rooted store rooted. -/
theorem Rooted.afterAll {s : Store} (h : s.Rooted) (ops : List Op) : (afterAll ops s).Rooted := by
  induction ops generalizing s with
  | nil => exact h
  | cons op rest ih =>
    cases op with
    | commit => exact ih (rooted_commit s)
    | set k v => exact ih h
    | delete k => exact ih h
    | discard => exact ih h

/-- A store that was fresh is rooted exactly after a commit. -/
theorem rooted_afterAll_iff (ops : List Op) :
    (Store.afterAll ops fresh).Rooted ↔ Op.commit ∈ ops := by
  constructor
  · intro hrooted
    by_contra hnone
    -- Without a commit the root would still be zero, and nothing committed.
    obtain ⟨root, committed⟩ := afterAll_of_not_commit hnone fresh
    unfold Rooted at hrooted
    rw [root, committed] at hrooted
    exact rootOf_empty_ne_zero hrooted.symm
  · intro hmem
    obtain ⟨before, after, rfl⟩ := List.append_of_mem hmem
    have split : Store.afterAll (before ++ .commit :: after) fresh =
        Store.afterAll after (Store.afterAll before fresh).commit := by
      unfold Store.afterAll
      rw [List.foldl_append, List.foldl_cons]
      rfl
    rw [split]
    exact (rooted_commit _).afterAll after

/-- A preview tells the root that a commit would give exactly where something was committed before
or is pending now. -/
theorem previewRoot_eq_root_commit_iff (ops : List Op) :
    (Store.afterAll ops fresh).previewRoot = (Store.afterAll ops fresh).commit.root ↔
      Op.commit ∈ ops ∨ (History.of ops).pending ≠ [] := by
  have pending : (Store.afterAll ops fresh).hasPending = true ↔ (History.of ops).pending ≠ [] := by
    unfold hasPending
    rw [(follows_afterAll ops).pending, Bool.not_eq_true', List.isEmpty_eq_false_iff]
  rw [previewRoot_eq_iff, rooted_afterAll_iff, pending, or_comm]

/-- The preview of a store to which nothing was done is not the root that its first commit gives. -/
theorem previewRoot_fresh_ne :
    (Store.afterAll [] fresh).previewRoot ≠ (Store.afterAll [] fresh).commit.root :=
  rootOf_empty_ne_zero.symm

end Store

end TestChain
