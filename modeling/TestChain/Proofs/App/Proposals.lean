import TestChain.Proofs.App.Lossless

/-!
# Proposals

A proposal takes transactions from the front of a list until one does not fit into what is left of
the budget. First transactions are among those it takes exactly if all of them together fit
(`prefix_fitting_iff`), so it takes the longest first ones that do (`LongestFitting`). This says all
of the answer: it depends on the list and the budget alone, it grows with the budget, and what was
chosen once is chosen again (`App.proposal_longest_fitting`).
-/

namespace TestChain

/-! ## Sizes -/

/-- The sizes of two lists of transactions add up. -/
theorem totalSize_append (txs more : List Tx) :
    totalSize (txs ++ more) = totalSize txs + totalSize more := by
  induction txs with
  | nil => rw [List.nil_append, totalSize, Nat.zero_add]
  | cons tx rest ih => rw [List.cons_append, totalSize, totalSize, ih, Nat.add_assoc]

/-- First transactions have no more bytes than all of them. -/
theorem totalSize_le_of_prefix {first txs : List Tx} (h : first <+: txs) :
    totalSize first ≤ totalSize txs := by
  obtain ⟨rest, rfl⟩ := h
  rw [totalSize_append]
  exact Nat.le_add_right _ _

/-- The chosen transactions are the longest first ones of a list that fit into a budget. -/
structure LongestFitting (budget : Int) (txs chosen : List Tx) : Prop where
  /-- They are the first ones, in order. -/
  first : chosen <+: txs
  /-- They fit, unless nothing does. -/
  fits : 0 ≤ budget → totalSize chosen ≤ budget
  /-- No more of the first ones fit. -/
  longest : ∀ l, l <+: txs → totalSize l ≤ budget → l.length ≤ chosen.length
  /-- A negative budget is not even enough for none. -/
  none : budget < 0 → chosen = []

/-- The longest first transactions that fit are behind no transaction that does not fit. -/
theorem LongestFitting.prefix_of_misfit {budget : Int} {past rest chosen : List Tx} {tx : Tx}
    (h : LongestFitting budget (past ++ tx :: rest) chosen)
    (misfit : budget < totalSize (past ++ [tx])) : chosen <+: past := by
  rcases Int.lt_or_le budget 0 with negative | nonneg
  · rw [h.none negative]
    exact List.nil_prefix
  · have through : past ++ [tx] <+: past ++ tx :: rest := ⟨rest, by simp⟩
    -- Both are first transactions of one list, so one begins with the other.
    rcases List.prefix_or_prefix_of_prefix through h.first with within | within
    · have size := totalSize_le_of_prefix within
      have fits := h.fits nonneg
      omega
    · rcases List.prefix_concat_iff.1 within with rfl | shorter
      · have fits := h.fits nonneg
        omega
      · exact shorter

namespace App

/-- With a negative budget nothing is taken. -/
theorem fitting_of_neg {budget : Int} (h : budget < 0) (txs : List Tx) :
    fitting budget txs = [] := by
  cases txs with
  | nil => rfl
  | cons tx rest =>
    have short : budget < tx.size := by omega
    rw [fitting, if_pos short]

/-- First transactions are taken exactly if all of them together fit. The budget that is left after
each of them is what carries the induction. -/
theorem prefix_fitting_iff {budget : Int} (h : 0 ≤ budget) (txs l : List Tx) :
    l <+: fitting budget txs ↔ l <+: txs ∧ totalSize l ≤ budget := by
  induction txs generalizing budget l with
  | nil =>
    rw [fitting, List.prefix_nil]
    refine ⟨fun hl => ⟨hl, ?_⟩, fun hl => hl.1⟩
    rw [hl, totalSize]
    exact h
  | cons tx rest ih =>
    cases l with
    | nil => exact iff_of_true List.nil_prefix ⟨List.nil_prefix, h⟩
    | cons first l =>
      have size : totalSize (first :: l) = first.size + totalSize l := rfl
      rw [fitting]
      split
      · next misfit =>
        refine iff_of_false (fun hl => ?_) fun hl => ?_
        · cases List.prefix_nil.1 hl
        · obtain ⟨rfl, -⟩ := List.cons_prefix_cons.1 hl.1
          omega
      · next fit =>
        have left : 0 ≤ budget - tx.size := by omega
        rw [List.cons_prefix_cons, List.cons_prefix_cons, ih left, and_assoc]
        refine and_congr_right fun same => and_congr_right fun _ => ?_
        rw [size, same]
        omega

/-- What is taken are the longest first transactions that fit. -/
theorem longestFitting_fitting (budget : Int) (txs : List Tx) :
    LongestFitting budget txs (fitting budget txs) where
  first := fitting_isPrefix budget txs
  fits nonneg := ((prefix_fitting_iff nonneg txs _).1 List.prefix_rfl).2
  longest l hl size := by
    have nonneg : 0 ≤ budget := by omega
    exact ((prefix_fitting_iff nonneg txs l).2 ⟨hl, size⟩).length_le
  none negative := fitting_of_neg negative txs

/-- With a larger budget at least the same transactions are taken. -/
theorem fitting_prefix_fitting {budget more : Int} (h : budget ≤ more) (txs : List Tx) :
    fitting budget txs <+: fitting more txs := by
  rcases Int.lt_or_le budget 0 with negative | nonneg
  · rw [fitting_of_neg negative]
    exact List.nil_prefix
  · obtain ⟨first, size⟩ := (prefix_fitting_iff nonneg txs _).1 List.prefix_rfl
    exact (prefix_fitting_iff (Int.le_trans nonneg h) txs _).2 ⟨first, Int.le_trans size h⟩

/-- What was taken is taken again, also with a larger budget. -/
theorem fitting_fitting {budget more : Int} (h : budget ≤ more) (txs : List Tx) :
    fitting more (fitting budget txs) = fitting budget txs := by
  rcases Int.lt_or_le budget 0 with negative | nonneg
  · rw [fitting_of_neg negative, fitting]
  · have size := ((prefix_fitting_iff nonneg txs _).1 List.prefix_rfl).2
    have again : fitting budget txs <+: fitting more (fitting budget txs) :=
      (prefix_fitting_iff (Int.le_trans nonneg h) _ _).2
        ⟨List.prefix_rfl, Int.le_trans size h⟩
    exact (again.eq_of_length_le (fitting_isPrefix _ _).length_le).symm

/-- An application that answers requests for proposals proposes the longest first transactions that
fit, none of them behind one that does not. A request with at least the same budget, also to another
application, is answered with at least those if it has the same list, and with just those if they
are its list. -/
theorem proposal_longest_fitting {a b : App} (ha : a.Answers .prepare) (hb : b.Answers .prepare)
    (r : PrepareRequest) :
    ∃ txs, prepareProposal r a = .ok txs { a with lastPrepare := some r } ∧
      LongestFitting r.maxTxBytes.toInt r.txs txs ∧
      (∀ past tx rest, r.txs = past ++ tx :: rest →
        r.maxTxBytes.toInt < totalSize (past ++ [tx]) → txs <+: past) ∧
      ∀ r' : PrepareRequest, r.maxTxBytes ≤ r'.maxTxBytes →
        ∃ txs', prepareProposal r' b = .ok txs' { b with lastPrepare := some r' } ∧
          (r'.txs = r.txs → txs <+: txs') ∧ (r'.txs = txs → txs' = txs) := by
  have chosen := longestFitting_fitting r.maxTxBytes.toInt r.txs
  refine ⟨_, prepareProposal_ok_iff.2 ⟨ha, rfl, rfl⟩, chosen, fun past tx rest split misfit => ?_,
    fun r' more => ⟨_, prepareProposal_ok_iff.2 ⟨hb, rfl, rfl⟩, fun same => ?_, fun same => ?_⟩⟩
  · rw [split] at chosen ⊢
    exact chosen.prefix_of_misfit misfit
  · rw [same]
    exact fitting_prefix_fitting (Int64.le_iff_toInt_le.1 more) r.txs
  · rw [same]
    exact fitting_fitting (Int64.le_iff_toInt_le.1 more) r.txs

/-- A begun chain is asked for five bytes of three, none, two, none, one and none: it proposes the
first four transactions, also the empty one for which no byte is left. -/
theorem exists_proposal :
    ∃ (l : Life) (r : PrepareRequest) (txs : List Tx), l.now.Answers .prepare ∧
      r.txs.map ByteArray.size = [3, 0, 2, 0, 1, 0] ∧ r.maxTxBytes = 5 ∧
      prepareProposal r l.now = .ok txs { l.now with lastPrepare := some r } ∧
      txs = r.txs.take 4 := by
  obtain ⟨l, opening, v, a, -, -, -, begun, -⟩ :=
    exists_beginning (Harness.buildable_crediting [] (by decide) Harness.seventeens)
  let l' : Life := { l with requests := l.requests ++ [.initChain opening, .clearFailures] }
  have now : l'.now = a.clearFailures := by
    have next : (Request.initChain opening).next l.now = a := stateAfter_of_ok begun
    rw [← next]
    exact List.foldl_append
  have answers : l'.now.Answers .prepare := by
    obtain ⟨-, -, -, d, o, -, -, rfl, -⟩ := initChain_ok_iff.1 begun
    rw [now]
    exact ⟨rfl, rfl⟩
  let r : PrepareRequest :=
    ⟨5, [⟨#[97, 98, 99]⟩, ⟨#[]⟩, ⟨#[100, 101]⟩, ⟨#[]⟩, ⟨#[102]⟩, ⟨#[]⟩], 1, 0, none⟩
  obtain ⟨txs, proposed, chosen, beyond, -⟩ := proposal_longest_fitting answers answers r
  have least : 4 ≤ txs.length := chosen.longest (r.txs.take 4) (List.take_prefix 4 _) (by decide)
  have most : txs <+: r.txs.take 4 := beyond _ ⟨#[102]⟩ [⟨#[]⟩] rfl (by decide)
  exact ⟨l', r, txs, answers, rfl, rfl, proposed, most.eq_of_length_le least⟩

end App

end TestChain
