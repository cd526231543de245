import TestChain.Proofs.Codec.Values
import TestChain.Proofs.Store.Scan
import TestChain.Proofs.App.Genesis

/-!
# What lasts of values written in order

Where several values are written under one key, the last one stays. `lasting` is what stays of a
list, and `superseded` is the rest. After a list is written under keys with a beginning of their
own, a scan of this beginning gives what lasts of it (`Ledger.scan_writeAll`), which reads back
(`Ledger.values_of_perm`).
-/

namespace TestChain

section Lasting

variable {α κ : Type} [DecidableEq κ] (key : α → κ)

/-- What no later element of the list has the key of. -/
def lasting : List α → List α
  | [] => []
  | a :: rest => if rest.any fun b => key b = key a then lasting rest else a :: lasting rest

/-- What a later element of the list has the key of. -/
def superseded : List α → List α
  | [] => []
  | a :: rest => if rest.any fun b => key b = key a then a :: superseded rest else superseded rest

variable {key}

/-- What lasts is in the list. -/
theorem mem_of_mem_lasting {l : List α} {a : α} (h : a ∈ lasting key l) : a ∈ l := by
  induction l with
  | nil => exact h
  | cons b rest ih =>
    rw [lasting] at h
    split at h
    · exact List.mem_cons_of_mem _ (ih h)
    · rcases List.mem_cons.1 h with rfl | h
      · exact List.mem_cons_self
      · exact List.mem_cons_of_mem _ (ih h)

/-- The first of a list lasts if no later one has its key, and of the others the same lasts. -/
theorem mem_lasting_cons {a b : α} {l : List α} :
    b ∈ lasting key (a :: l) ↔ (b = a ∧ ∀ c ∈ l, key c ≠ key a) ∨ b ∈ lasting key l := by
  rw [lasting]
  split
  · rename_i hany
    obtain ⟨c, hc, heq⟩ := List.any_eq_true.1 hany
    refine (or_iff_right ?_).symm
    exact fun h => h.2 c hc (of_decide_eq_true heq)
  · rename_i hany
    have last : ∀ c ∈ l, key c ≠ key a := fun c hc heq =>
      hany (List.any_eq_true.2 ⟨c, hc, decide_eq_true heq⟩)
    rw [List.mem_cons, and_iff_left last]

/-- What lasts has every key once. -/
theorem pairwise_lasting (l : List α) : (lasting key l).Pairwise fun a b => key a ≠ key b := by
  induction l with
  | nil => exact .nil
  | cons a rest ih =>
    rw [lasting]
    split
    · exact ih
    · rename_i hany
      refine List.pairwise_cons.2 ⟨fun b hb heq => hany ?_, ih⟩
      exact List.any_eq_true.2 ⟨b, mem_of_mem_lasting hb, decide_eq_true heq.symm⟩

/-- What a later element has the key of is superseded. -/
theorem mem_superseded_cons {a b : α} {l : List α} (hb : b ∈ l) (h : key b = key a) :
    a ∈ superseded key (a :: l) := by
  rw [superseded, if_pos (List.any_eq_true.2 ⟨b, hb, decide_eq_true h⟩)]
  exact List.mem_cons_self

/-- What lasts and what does not make up any sum over the list. -/
theorem sum_lasting_superseded (f : α → Nat) (l : List α) :
    (l.map f).sum = ((lasting key l).map f).sum + ((superseded key l).map f).sum := by
  induction l with
  | nil => rfl
  | cons a rest ih =>
    rw [lasting, superseded, List.map_cons, List.sum_cons, ih]
    split
    · rw [List.map_cons, List.sum_cons]
      omega
    · rw [List.map_cons, List.sum_cons]
      omega

/-- Where every key comes once, everything lasts. -/
theorem lasting_of_nodup {l : List α} (h : (l.map key).Nodup) :
    lasting key l = l ∧ superseded key l = [] := by
  induction l with
  | nil => exact ⟨rfl, rfl⟩
  | cons a rest ih =>
    obtain ⟨ha, hrest⟩ := List.nodup_cons.1 h
    have last : ¬(rest.any fun b => key b = key a) = true := fun hany => by
      obtain ⟨b, hb, heq⟩ := List.any_eq_true.1 hany
      exact ha (List.mem_map.2 ⟨b, hb, of_decide_eq_true heq⟩)
    rw [lasting, superseded, if_neg last, if_neg last, (ih hrest).1, (ih hrest).2]
    exact ⟨rfl, rfl⟩

/-- Keys that are told apart by another name last and are superseded alike. -/
theorem lasting_comp {κ' : Type} [DecidableEq κ'] {f : κ → κ'} (hf : ∀ k k', f k = f k' → k = k')
    (l : List α) : lasting (fun a => f (key a)) l = lasting key l := by
  have same : ∀ a b : α, (f (key b) = f (key a)) = (key b = key a) := fun a b =>
    propext ⟨hf _ _, congrArg f⟩
  induction l with
  | nil => rfl
  | cons a rest ih => simp only [lasting, same, ih]

end Lasting

namespace Ledger

variable {α β : Type} {c : Codec α} {key : β → Bytes} {value : β → α}

/-- A value written under a key is the one that lasts, or the one before if none is written. -/
theorem get?_writeAll (l : List β) (s : Store) (k v : Bytes) :
    (writeAll c key value l s).get? k = some v ↔
      (∃ b ∈ lasting key l, key b = k ∧ v = Bytes.ofString (c.text (value b))) ∨
        ((∀ b ∈ l, key b ≠ k) ∧ s.get? k = some v) := by
  induction l generalizing s with
  | nil =>
    constructor
    · exact fun h => .inr ⟨fun _ hb => (nomatch hb), h⟩
    · rintro (⟨b, hb, -⟩ | ⟨-, h⟩)
      · cases hb
      · exact h
  | cons b rest ih =>
    have first : writeAll c key value (b :: rest) s =
        writeAll c key value rest (s.write c (key b) (value b)) := rfl
    -- The first value lasts if it is the last under its key.
    have lasts : (∃ b' ∈ lasting key (b :: rest),
        key b' = k ∧ v = Bytes.ofString (c.text (value b'))) ↔
          ((∀ b' ∈ rest, key b' ≠ key b) ∧ key b = k ∧ v = Bytes.ofString (c.text (value b))) ∨
            ∃ b' ∈ lasting key rest, key b' = k ∧ v = Bytes.ofString (c.text (value b')) := by
      simp only [mem_lasting_cons, or_and_right, exists_or, and_assoc, exists_eq_left]
    rw [first, ih, lasts, List.forall_mem_cons]
    unfold Store.write
    rw [Store.get?_set]
    by_cases hk : key b = k
    · rw [if_pos hk, hk, Option.some.injEq, eq_comm (b := v)]
      simp only [ne_eq, not_true_eq_false, false_and, or_false, true_and]
      exact or_comm
    · rw [if_neg hk]
      simp only [ne_eq, hk, not_false_eq_true, false_and, and_false, true_and, false_or]

/-- Values written under keys without a beginning are not seen by a scan of it. -/
theorem scan_writeAll_of_not {lead : Bytes} {l : List β}
    (h : ∀ b ∈ l, lead.isPrefixOf (key b) = false) (s : Store) :
    (writeAll c key value l s).scan lead = s.scan lead := by
  induction l generalizing s with
  | nil => rfl
  | cons b rest ih =>
    have first : writeAll c key value (b :: rest) s =
        writeAll c key value rest (s.write c (key b) (value b)) := rfl
    rw [first, ih fun b' hb' => h b' (List.mem_cons_of_mem _ hb')]
    exact Store.scan_set_of_not (h b List.mem_cons_self) s _

/-- Values written under other keys leave the value of a key. -/
theorem get?_writeAll_of_ne {k : Bytes} {l : List β} (h : ∀ b ∈ l, key b ≠ k) (s : Store) :
    (writeAll c key value l s).get? k = s.get? k := by
  induction l generalizing s with
  | nil => rfl
  | cons b rest ih =>
    have first : writeAll c key value (b :: rest) s =
        writeAll c key value rest (s.write c (key b) (value b)) := rfl
    rw [first, ih fun b' hb' => h b' (List.mem_cons_of_mem _ hb')]
    unfold Store.write
    rw [Store.get?_set, if_neg (h b List.mem_cons_self)]

/-- After a list is written under keys with a beginning that no key had before, a scan of it gives
what lasts of the list. -/
theorem scan_writeAll {lead : Bytes} {l : List β} (h : ∀ b ∈ l, lead.isPrefixOf (key b) = true)
    {s : Store} (empty : s.scan lead = []) :
    ((writeAll c key value l s).scan lead).Perm
      ((lasting key l).map fun b => (key b, Bytes.ofString (c.text (value b)))) := by
  have apart : ((lasting key l).map fun b => (key b, Bytes.ofString (c.text (value b)))).Nodup :=
    List.pairwise_map.2 ((pairwise_lasting l).imp fun hne heq => hne (Prod.mk.inj heq).1)
  refine (Store.scan_perm_iff apart).2 fun k v => ?_
  rw [get?_writeAll, List.mem_map]
  constructor
  · rintro ⟨b, hb, heq⟩
    obtain ⟨hkey, hv⟩ := Prod.mk.inj heq
    exact ⟨hkey ▸ h b (mem_of_mem_lasting hb), .inl ⟨b, hb, hkey, hv.symm⟩⟩
  · rintro ⟨hlead, ⟨b, hb, hkey, hv⟩ | ⟨-, hv⟩⟩
    · exact ⟨b, hb, Prod.ext hkey hv.symm⟩
    · have old := Store.mem_scan_iff.2 ⟨hlead, hv⟩
      rw [empty] at old
      cases old

/-- Written values are read back in the order of their keys. -/
theorem values_of_perm {depth : Nat} {lead : Bytes} {l : List β} {s : Store}
    (hc : ∀ b, c.Faithful depth (value b)) (hdepth : depth ≤ 127)
    (hscan : (s.scan lead).Perm (l.map fun b => (key b, Bytes.ofString (c.text (value b))))) :
    ∃ bs : List β, bs.Perm l ∧ values c lead s = .ok (bs.map value) ∧
      bs.Pairwise fun a b => key a < key b := by
  -- The entries that are scanned are those of the values, put into another order.
  obtain ⟨bs, hbs, hperm⟩ := exists_map_of_perm hscan rfl
  have order : bs.Pairwise fun a b => key a < key b := by
    have sorted := s.sorted_scan lead
    rw [hbs, List.pairwise_map] at sorted
    exact sorted
  refine ⟨bs, hperm, ?_, order⟩
  have read : (bs.map fun b => (key b, Bytes.ofString (c.text (value b)))).mapM
      (fun e => Store.decode c e.2) = (.ok (bs.map value) : Except DecodeError (List α)) := by
    clear hbs hperm order
    induction bs with
    | nil => rfl
    | cons b rest ih =>
      rw [List.map_cons, List.mapM_cons, Store.decode_text (hc b) hdepth, ih]
      rfl
  unfold values Store.readAll
  rw [hbs, read]
  rfl

end Ledger

end TestChain
