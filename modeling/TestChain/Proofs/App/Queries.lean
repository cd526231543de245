import TestChain.Proofs.App.Lossless
import TestChain.Proofs.Json.Doubles

/-!
# Queries do not fail

At every moment the key of whatever a store shows is that of the supply or begins like those of
exactly one kind, and the value is one of its type; so every query is answered
(`App.Life.queries_answered`). The records of the ledger are written by codecs that lose nothing.
The states of modules come from the text of a document, and their doubles may be read back as
others; but a double that a numeral stands for is written as a numeral in range, so a state is
always read back as some value (`Json.Free.readAs_state`). Adding coins and taking them away leaves
coins in order, so balances and the supply are in order where those of the document are, whatever
coins are moved or created.
-/

namespace TestChain

/-- A free value of a text is read back as some value. -/
theorem Json.Free.readAs_state {d : Nat} {j : Json} (free : j.Free Reading.Spelled d)
    (hd : d ≤ 127) :
    Ledger.ReadAs Codec.json (fun _ => True) (Bytes.ofString (Codec.json.text j)) := by
  obtain ⟨f, respelled⟩ := Reading.exists_respelled
  have spelled : Reading.Respelled Reading.Spelled f := fun x hx => respelled x hx.isFinite
  exact ⟨_, Store.decode_respelled spelled free.doubles (Nat.le_trans free.depth_le hd), trivial⟩

namespace Ledger

/-- The coins that a ledger begins with are in order. -/
structure Opening.CoinsSorted (o : Opening) : Prop where
  /-- The balances are. -/
  balances : ∀ b ∈ o.bank.balances, b.coins.Sorted
  /-- The supply is. -/
  supply : o.bank.supply.Sorted

/-- The stored coins are in order. -/
structure CoinsSorted (s : Store) : Prop where
  /-- All balances are. -/
  balances : ∀ k v, balanceLead <+: k → s.get? k = some v → ReadAs Coins.codec Coins.Sorted v
  /-- The supply is. -/
  supply : ∀ v, s.get? supplyKey = some v → ReadAs Coins.codec Coins.Sorted v

/-- Every query is answered, whatever it asks for. -/
structure Answered (s : Store) : Prop where
  /-- The account of an address. -/
  account : ∀ a, ∃ x, account? a s = .ok x
  /-- The balances of an address. -/
  balances : ∀ a, ∃ cs, balances a s = .ok cs
  /-- The supply. -/
  supply : ∃ cs, supply s = .ok cs
  /-- The sum of all balances. -/
  totalBalances : ∃ cs, totalBalances s = .ok cs
  /-- The validators. -/
  validators : ∃ vs, validators s = .ok vs
  /-- The validator of an operator. -/
  validator : ∀ a, ∃ x, validator? a s = .ok x
  /-- The delegations. -/
  delegations : ∃ ds, delegations s = .ok ds
  /-- The signing info of an address. -/
  signingInfo : ∀ a, ∃ x, signingInfo? a s = .ok x
  /-- The state of a module. -/
  moduleState : ∀ name, ∃ x, moduleState? name s = .ok x

variable {s : Store} {p : Coins → Prop}

/-- In a store that is well typed every query is answered. -/
theorem WellTyped.answered (h : WellTyped (.of p) s) (empty : p .empty) : Answered s where
  account := h.account?
  balances a := (h.balances empty a).imp fun _ h => h.1
  supply := (h.supply empty).imp fun _ h => h.1
  totalBalances := h.totalBalances
  validators := h.validators
  validator := h.validator?
  delegations := h.delegations
  signingInfo := h.signingInfo?
  moduleState := h.moduleState?

/-- In a store that is well typed the coins are as they are asked for. -/
theorem WellTyped.coinsSorted {state : Bytes → Prop} (h : WellTyped ⟨Coins.Sorted, state⟩ s) :
    CoinsSorted s where
  balances _ _ hk hv := h.reads .balance hk hv
  supply v hv := (h supplyKey v hv).supply

/-- An entry is the supply, or a value of the one kind that its key begins like. -/
theorem Entry.supply_or_kind {t : Typing} {k v : Bytes} (h : Entry t k v) :
    (k = supplyKey ∧ ReadAs Coins.codec t.coins v) ∨
      ∃ kind : Kind, k ≠ supplyKey ∧ kind.lead <+: k ∧ kind.Reads t v ∧
        ∀ other : Kind, other.lead <+: k → other = kind := by
  rcases h with supplied | ⟨kind, hk, hv⟩
  · exact .inl supplied
  · refine .inr ⟨kind, fun same => ?_, hk, hv, fun other hother => Kind.eq_of_begins hother hk⟩
    exact kind.not_begins_supplyKey (same ▸ hk)

end Ledger

namespace App

/-- The store of an application is well typed, and with it the coins of the ledger are as those that
it has begun with, if adding coins and taking them away does not change this. -/
theorem Life.wellTyped_of (l : Life) {p : Coins → Prop} (closed : (Ledger.Typing.of p).Closed)
    (coins : ∀ d o, l.BegunWith d → Ledger.Opening.ofDocument d = .ok o →
      (∀ b ∈ o.bank.balances, p b.coins) ∧ p o.bank.supply) :
    Ledger.WellTyped (.of p) l.now.store := by
  refine l.wellTyped closed coins fun d hd m hm => ?_
  obtain ⟨r, accepted⟩ := hd.accepted
  exact (GenesisDocument.free_of_ofBytes (acceptedDocument_ok_iff.1 accepted).1 m hm).readAs_state
    (by decide)

/-- The store of an application is well typed at every moment: whatever it shows is the supply or a
value of exactly one kind. So every query is answered; and where the coins that the chain has begun
with are in order, the balances and the supply are. -/
theorem Life.queries_answered (l : Life) :
    (∀ k v, l.now.store.get? k = some v →
      (k = Ledger.supplyKey ∧ Ledger.ReadAs Coins.codec (fun _ => True) v) ∨
        ∃ kind : Ledger.Kind, k ≠ Ledger.supplyKey ∧ kind.lead <+: k ∧
          kind.Reads (.of fun _ => True) v ∧
            ∀ other : Ledger.Kind, other.lead <+: k → other = kind) ∧
      Ledger.Answered l.now.store ∧
      ((∀ d o, l.BegunWith d → Ledger.Opening.ofDocument d = .ok o → o.CoinsSorted) →
        Ledger.CoinsSorted l.now.store) := by
  have typed := l.wellTyped_of (Ledger.Typing.closed_true _) fun _ _ _ _ =>
    ⟨fun _ _ => trivial, trivial⟩
  refine ⟨fun k v hv => (typed k v hv).supply_or_kind, typed.answered trivial, fun sorted => ?_⟩
  have ordered := l.wellTyped_of (Ledger.Typing.closed_sorted _) fun d o hd ho =>
    ⟨(sorted d o hd ho).balances, (sorted d o hd ho).supply⟩
  exact ordered.coinsSorted

/-- The coins of a new chain are in order, and they remain so where coins out of order are
created. -/
theorem exists_coins_sorted :
    ∃ (l : Life) (a : AccountAddress) (cs : Coins), l.now.isInitialized = true ∧
      .fund a cs ∈ l.requests ∧ ¬cs.Sorted ∧ Ledger.CoinsSorted l.now.store := by
  have buildable := Harness.buildable_crediting [] (by decide) Harness.seventeens
  obtain ⟨l, r, v, a, d, key, supply, begun, accepted, opens, -, sorted⟩ :=
    exists_beginning buildable
  let disordered : Coins := ⟨[⟨"b", 1⟩, ⟨"a", 1⟩]⟩
  let l' : Life := { l with
    requests := l.requests ++ [.initChain r, .fund Harness.seventeens disordered] }
  have begunWith : l'.BegunWith d :=
    ⟨l.requests, r, [.fund Harness.seventeens disordered], v, a, rfl, begun, accepted⟩
  refine ⟨l', Harness.seventeens, disordered, l'.isInitialized_iff.2 ⟨d, begunWith⟩,
    List.mem_append_right _ (.tail _ (.head _)), ?_, l'.queries_answered.2.2 fun d' o' hd ho => ?_⟩
  · unfold Coins.Sorted
    decide
  · cases begunWith.unique hd
    cases opens.symm.trans ho
    exact ⟨buildable.sorted_listed, sorted⟩

end App

end TestChain
