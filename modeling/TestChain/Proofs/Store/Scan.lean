import Mathlib.Algebra.GroupWithZero.Nat
import TestChain.Store

/-!
# Scans

A scan gives the entries under a beginning of keys. It looks at the entries from the beginning on,
as long as their keys have it, and that is all of them, since such keys follow one another in the
order of keys (`isPrefixOf_of_between`, `Entries.toList_startingWith`). So a scan gives a part of
the view (`Store.scan_eq`), which is known by reading (`Store.mem_scan_iff`); a write to another key
is not seen (`Store.scan_set_of_not`), and a sum over its values changes by the written value and
the one in whose place it comes (`Store.weigh_set`).
-/

namespace TestChain

/-! ## Keys with a common beginning -/

/-- A key is not before any of its beginnings. -/
theorem not_lt_of_isPrefixOf {lead k : Bytes} (h : lead.isPrefixOf k = true) : ¬k < lead := by
  obtain ⟨rest, rfl⟩ := List.isPrefixOf_iff_prefix.1 h
  clear h
  induction lead with
  | nil => exact List.not_lt_nil _
  | cons x lead ih =>
    rw [List.cons_append, List.cons_lt_cons_iff]
    rintro (hlt | ⟨-, hlt⟩)
    · exact UInt8.lt_irrefl x hlt
    · exact ih hlt

/-- What lies between a beginning and a key that has it has the beginning too. -/
theorem isPrefixOf_of_between {lead j k : Bytes} (hk : lead.isPrefixOf k = true)
    (hlead : ¬j < lead) (hlt : j < k) : lead.isPrefixOf j = true := by
  induction lead generalizing j k with
  | nil => rfl
  | cons x lead ih =>
    obtain ⟨rest, rfl⟩ := List.isPrefixOf_iff_prefix.1 hk
    cases j with
    | nil => exact absurd (List.nil_lt_cons x lead) hlead
    | cons y j =>
      rw [List.cons_lt_cons_iff, not_or] at hlead
      rw [List.cons_append, List.cons_lt_cons_iff] at hlt
      -- The first bytes agree: a smaller one would come before the beginning.
      rcases hlt with hlt | ⟨rfl, hlt⟩
      · exact absurd hlt hlead.1
      · have inner : lead.isPrefixOf (lead ++ rest) = true :=
          List.isPrefixOf_iff_prefix.2 (List.prefix_append lead rest)
        rw [List.isPrefixOf_cons_cons, ih inner (fun h => hlead.2 ⟨rfl, h⟩) hlt, beq_self_eq_true]
        rfl

/-- Where nothing that passes a test stands behind something that fails it, the first elements that
pass are all that do. -/
theorem takeWhile_eq_filter {α : Type} {p : α → Bool} {l : List α}
    (h : l.Pairwise fun a b => p b = true → p a = true) : l.takeWhile p = l.filter p := by
  induction l with
  | nil => rfl
  | cons a rest ih =>
    obtain ⟨ha, hrest⟩ := List.pairwise_cons.1 h
    rw [List.takeWhile_cons, List.filter_cons]
    by_cases hp : p a = true
    · rw [if_pos hp, if_pos hp, ih hrest]
    · rw [if_neg hp, if_neg hp]
      exact (List.filter_eq_nil_iff.2 fun b hb hpb => hp (ha b hb hpb)).symm

namespace Entries

variable {α : Type}

/-- A key is found with the value of its entry. -/
theorem mem_iff_find? {l : List (Bytes × α)} (h : l.Pairwise fun a b => a.1 < b.1) {k : Bytes}
    {a : α} : (k, a) ∈ l ↔ find? k l = some a := by
  induction l with
  | nil => exact ⟨fun h => (nomatch h), fun h => (nomatch h)⟩
  | cons e rest ih =>
    obtain ⟨he, hrest⟩ := List.pairwise_cons.1 h
    obtain ⟨j, b⟩ := e
    rw [List.mem_cons, find?]
    by_cases hj : j = k
    · subst hj
      rw [if_pos rfl]
      constructor
      -- A later entry of the same key would not be in order.
      · rintro (heq | hmem)
        · rw [(Prod.mk.inj heq).2]
        · exact absurd (he _ hmem) (List.lt_irrefl j)
      · exact fun heq => .inl (by rw [Option.some.inj heq])
    · rw [if_neg hj, ← ih hrest]
      exact or_iff_right fun heq => hj (Prod.mk.inj heq).1.symm

/-- All entries whose keys begin with some bytes are looked at. -/
theorem toList_startingWith (m : Entries α) (lead : Bytes) :
    (m.startingWith lead).toList = m.toList.filter fun e => lead.isPrefixOf e.1 := by
  unfold startingWith
  dsimp only
  have sorted := m.sorted
  generalize m.toList = l at sorted
  induction l with
  | nil => rfl
  | cons e rest ih =>
    obtain ⟨he, hrest⟩ := List.pairwise_cons.1 sorted
    rw [List.dropWhile_cons]
    by_cases hlt : e.1 < lead
    · -- A key before the beginning does not have it.
      have away : ¬lead.isPrefixOf e.1 = true := fun h => not_lt_of_isPrefixOf h hlt
      rw [if_pos (decide_eq_true hlt), List.filter_cons, if_neg away, ih hrest]
    · rw [if_neg fun h => hlt (of_decide_eq_true h)]
      -- From here on every key that has the beginning has only such keys in front of it.
      refine takeWhile_eq_filter ((List.pairwise_cons.2 ⟨he, hrest⟩).imp_of_mem ?_)
      intro a b ha _ hab hb
      refine isPrefixOf_of_between hb (fun halead => hlt ?_) hab
      rcases List.mem_cons.1 ha with rfl | ha
      · exact halead
      · exact List.lt_trans (he a ha) halead

/-- Among the entries of some keys a key is found as among all. -/
theorem find?_filter (p : Bytes → Bool) (k : Bytes) (l : List (Bytes × α)) :
    find? k (l.filter fun e => p e.1) = if p k then find? k l else none := by
  induction l with
  | nil => exact (ite_self none).symm
  | cons e rest ih =>
    rw [List.filter_cons]
    by_cases he : e.1 = k
    · subst he
      by_cases hp : p e.1 = true
      · rw [if_pos hp, if_pos hp, find?, find?, if_pos rfl, if_pos rfl]
      · rw [if_neg hp, ih, if_neg hp, if_neg hp]
    · rw [find?, if_neg he, ← ih]
      split
      · rw [find?, if_neg he]
      · rfl

/-- The entries under a beginning have the values of the keys with it. -/
theorem get?_startingWith (m : Entries α) (lead k : Bytes) :
    (m.startingWith lead).get? k = if lead.isPrefixOf k then m.get? k else none := by
  unfold get?
  rw [toList_startingWith]
  exact find?_filter _ k m.toList

/-- The sum of what some values weigh. -/
def weigh (w : α → Nat) (l : List (Bytes × α)) : Nat :=
  (l.map fun e => w e.2).sum

/-- The first entry and the others make up the sum. -/
theorem weigh_cons (w : α → Nat) (e : Bytes × α) (l : List (Bytes × α)) :
    weigh w (e :: l) = w e.2 + weigh w l := by
  simp only [weigh, List.map_cons, List.sum_cons]

/-- Under a beginning that the key does not have, putting an entry changes nothing. -/
theorem filter_insert_of_not {lead k : Bytes} (hk : lead.isPrefixOf k = false) (a : α)
    (l : List (Bytes × α)) :
    (insert k a l).filter (fun e => lead.isPrefixOf e.1) =
      l.filter fun e => lead.isPrefixOf e.1 := by
  have away : ¬lead.isPrefixOf k = true := by simp [hk]
  induction l with
  | nil => rw [insert, List.filter_cons, if_neg away]
  | cons e rest ih =>
    obtain ⟨j, b⟩ := e
    rw [insert]
    split
    · rw [List.filter_cons, if_neg away]
    · split
      · rename_i heq
        subst heq
        rw [List.filter_cons, if_neg away, List.filter_cons, if_neg away]
      · rw [List.filter_cons, List.filter_cons, ih]

/-- Under a beginning that the key has, putting an entry adds its value to the sum and takes away
the one in whose place it comes. -/
theorem weigh_filter_insert {lead k : Bytes} (hk : lead.isPrefixOf k = true) (w : α → Nat) (a : α)
    {l : List (Bytes × α)} (h : l.Pairwise fun a b => a.1 < b.1) :
    weigh w ((insert k a l).filter fun e => lead.isPrefixOf e.1) +
        ((find? k l).map w).getD 0 =
      weigh w (l.filter fun e => lead.isPrefixOf e.1) + w a := by
  induction l with
  | nil =>
    rw [insert, List.filter_cons, if_pos hk, weigh_cons]
    exact Nat.add_comm _ _
  | cons e rest ih =>
    obtain ⟨he, hrest⟩ := List.pairwise_cons.1 h
    obtain ⟨j, b⟩ := e
    rw [insert]
    split
    · rename_i hlt
      -- A key before all others is new, so that nothing is taken away.
      have new : find? k ((j, b) :: rest) = none := by
        refine find?_eq_none_of_lt fun f hf => ?_
        rcases List.mem_cons.1 hf with rfl | hf
        · exact hlt
        · exact List.lt_trans hlt (he f hf)
      rw [new, List.filter_cons, if_pos hk, weigh_cons, Option.map_none, Option.getD_none,
        Nat.add_zero, Nat.add_comm]
    · split
      · rename_i heq
        subst heq
        rw [List.filter_cons, if_pos hk, List.filter_cons, if_pos hk, weigh_cons, weigh_cons,
          find?, if_pos rfl, Option.map_some, Option.getD_some]
        dsimp only
        omega
      · rename_i hne
        -- An entry of another key counts before and after, or in neither of the sums.
        rw [find?, if_neg (Ne.symm hne), List.filter_cons, List.filter_cons]
        split
        · rw [weigh_cons, weigh_cons]
          have := ih hrest
          omega
        · exact ih hrest

end Entries

/-- Carrying out the changes under a beginning on the entries under it gives what all changes give
there. -/
theorem Changes.applyTo_startingWith (c : Changes) (m : Entries Bytes) (lead : Bytes) :
    (c.startingWith lead).applyTo (m.startingWith lead) = (c.applyTo m).startingWith lead := by
  refine Entries.ext fun k => ?_
  rw [get?_applyTo, Entries.get?_startingWith, Entries.get?_startingWith, get?_applyTo]
  unfold get startingWith
  rw [Entries.get?_startingWith]
  by_cases hk : lead.isPrefixOf k = true
  · simp only [if_pos hk]
  · simp only [if_neg hk]

namespace Store

/-- Writing a value puts it into the view. -/
theorem view_set (s : Store) (k v : Bytes) : (s.set k v).view = s.view.put k v := by
  refine Entries.ext fun j => ?_
  rw [get?_view, get?_set, Entries.get?_put, get?_view]

/-- A scan gives the part of the view that has the beginning. -/
theorem scan_eq (s : Store) (lead : Bytes) :
    s.scan lead = s.view.toList.filter fun e => lead.isPrefixOf e.1 := by
  rw [← Entries.toList_startingWith]
  unfold scan view
  rw [Changes.applyTo_startingWith]

/-- A scan is in the order of keys. -/
theorem sorted_scan (s : Store) (lead : Bytes) :
    (s.scan lead).Pairwise fun a b => a.1 < b.1 :=
  Entries.sorted _

/-- A scan gives the entries whose keys have the beginning. -/
theorem mem_scan_iff {s : Store} {lead k v : Bytes} :
    (k, v) ∈ s.scan lead ↔ lead.isPrefixOf k = true ∧ s.get? k = some v := by
  rw [scan_eq, List.mem_filter, Entries.mem_iff_find? s.view.sorted, and_comm]
  exact and_congr_right fun _ => iff_of_eq (congrArg (· = some v) (s.get?_view k))

/-- What a scan gives is what its keys have. -/
theorem get?_eq_of_scan_eq {s t : Store} {lead k : Bytes} (hk : lead.isPrefixOf k = true)
    (h : t.scan lead = s.scan lead) : t.get? k = s.get? k := by
  refine Option.ext fun v => ?_
  have same : (k, v) ∈ t.scan lead ↔ (k, v) ∈ s.scan lead := by rw [h]
  rwa [mem_scan_iff, mem_scan_iff, and_iff_right hk, and_iff_right hk] at same

/-- The typed values under a beginning are those of a scan. -/
theorem readAll_eq_of_scan_eq {α : Type} (c : Codec α) {s t : Store} {lead : Bytes}
    (h : t.scan lead = s.scan lead) : t.readAll c lead = s.readAll c lead := by
  unfold readAll
  rw [h]

/-- A scan does not see what is written under a key without the beginning. -/
theorem scan_set_of_not {lead k : Bytes} (hk : lead.isPrefixOf k = false) (s : Store) (v : Bytes) :
    (s.set k v).scan lead = s.scan lead := by
  rw [scan_eq, scan_eq, view_set]
  exact Entries.filter_insert_of_not hk v _

/-- No entry comes twice in a scan. -/
theorem nodup_scan (s : Store) (lead : Bytes) : (s.scan lead).Nodup := by
  refine (s.sorted_scan lead).imp fun hlt heq => ?_
  rw [heq] at hlt
  exact List.lt_irrefl _ hlt

/-- A scan is known, but for its order, from the values that the keys with the beginning have. -/
theorem scan_perm_iff {s : Store} {lead : Bytes} {l : List (Bytes × Bytes)} (hl : l.Nodup) :
    (s.scan lead).Perm l ↔
      ∀ k v, (k, v) ∈ l ↔ lead.isPrefixOf k = true ∧ s.get? k = some v := by
  rw [List.perm_ext_iff_of_nodup (s.nodup_scan lead) hl]
  constructor
  · exact fun h k v => (h (k, v)).symm.trans mem_scan_iff
  · exact fun h e => mem_scan_iff.trans (h e.1 e.2).symm

/-- A value that is written under a new key with the beginning is added to a scan. -/
theorem scan_set_of_new {lead k : Bytes} (hk : lead.isPrefixOf k = true) {s : Store}
    (new : s.get? k = none) (v : Bytes) :
    ((s.set k v).scan lead).Perm ((k, v) :: s.scan lead) := by
  have absent : (k, v) ∉ s.scan lead := fun hmem => by
    rw [mem_scan_iff, new] at hmem
    cases hmem.2
  refine (scan_perm_iff (List.nodup_cons.2 ⟨absent, s.nodup_scan lead⟩)).2 fun j w => ?_
  rw [List.mem_cons, mem_scan_iff, Prod.mk.injEq, get?_set]
  by_cases hj : k = j
  · subst hj
    rw [if_pos rfl, new, Option.some.injEq]
    simp only [true_and, reduceCtorEq, and_false, or_false, hk, eq_comm]
  · rw [if_neg hj]
    simp only [eq_comm (a := j), hj, false_and, false_or]

/-- The sum of what the values under a beginning weigh. -/
def weigh (s : Store) (lead : Bytes) (w : Bytes → Nat) : Nat :=
  Entries.weigh w (s.scan lead)

/-- Writing a value under the beginning adds what it weighs and takes away what the value in whose
place it comes weighed. -/
theorem weigh_set {lead k : Bytes} (hk : lead.isPrefixOf k = true) (s : Store) (v : Bytes)
    (w : Bytes → Nat) :
    (s.set k v).weigh lead w + ((s.get? k).map w).getD 0 = s.weigh lead w + w v := by
  have put := Entries.weigh_filter_insert hk w v s.view.sorted
  have found : Entries.find? k s.view.toList = s.get? k := s.get?_view k
  rw [found] at put
  unfold weigh
  rw [scan_eq, scan_eq, view_set]
  exact put

/-- A commit changes no scan. -/
theorem scan_commit (s : Store) (lead : Bytes) : s.commit.scan lead = s.scan lead := by
  rw [scan_eq, scan_eq]
  rfl

end Store

end TestChain
