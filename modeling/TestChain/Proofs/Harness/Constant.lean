import TestChain.Proofs.App.Lossless
import TestChain.Proofs.Harness.Delivery

/-!
# What a run leaves as it was

A begun chain writes nothing into its ledger but coins, accounts and signing infos
(`Ledger.kept_fixed`). So at every moment of a run the validators are those that it began with, in
the order of their operators' addresses (`Run.exists_validators`), and the configuration is the one
that it was begun with (`Run.config_at`).
-/

namespace TestChain

namespace Ledger

/-- A key under which neither coins are created or moved nor votes are counted. -/
structure Fixed (k : Bytes) : Prop where
  /-- It has nothing to do with coins. -/
  quiet : Quiet k
  /-- It is not the key of a signing info. -/
  unsigned : Unsigned k

/-- The keys of validators are fixed. -/
theorem fixed_validator {k : Bytes} (hk : validatorLead.isPrefixOf k = true) : Fixed k :=
  ⟨quiet_validator hk, unsigned_validator hk⟩

/-- Nothing that a begun chain does to its ledger changes a fixed key. -/
theorem kept_fixed (s₀ : Store) : App.Kept (s₀.AgreeOn Fixed) := by
  have coins : KeptByCoins (s₀.AgreeOn Fixed) := {
    balance := fun a cs s same =>
      same.trans (((keptByCoins_quiet s).balance a cs s (.refl s)).mono fun _ h => h.quiet)
    supply := fun cs s same =>
      same.trans (((keptByCoins_quiet s).supply cs s (.refl s)).mono fun _ h => h.quiet)
    account := fun a s same =>
      same.trans (((keptByCoins_quiet s).account a s (.refl s)).mono fun _ h => h.quiet) }
  refine coins.kept (fun a i s same => same.trans (.write_of_not s _ i fun h => ?_))
    fun s same => same.trans (.commit s)
  exact not_unsigned_signingInfoKey a h.unsigned

/-- Where the fixed keys agree, the validators are the same. -/
theorem validators_fixed {s t : Store} (same : s.AgreeOn Fixed t) : validators t = validators s :=
  values_agree same Validator.codec fun _ => fixed_validator

/-- A value that is read for one of the elements is one of the values that are read for all. -/
theorem mem_of_mapM_ok {α β ε : Type} {f : α → Except ε β} {l : List α} {bs : List β} {a : α}
    {b : β} (hl : l.mapM f = .ok bs) (ha : a ∈ l) (hb : f a = .ok b) : b ∈ bs := by
  induction l generalizing bs with
  | nil => exact absurd ha List.not_mem_nil
  | cons first rest ih =>
    rw [List.mapM_cons] at hl
    obtain ⟨c, hc, hrest⟩ := except_bind_ok_iff.1 hl
    obtain ⟨cs, hcs, hall⟩ := except_bind_ok_iff.1 hrest
    have split : bs = c :: cs := (Except.ok.inj hall).symm
    rw [split]
    rcases List.mem_cons.1 ha with rfl | later
    · have same : b = c := Except.ok.inj (hb.symm.trans hc)
      rw [same]
      exact List.mem_cons_self
    · exact List.mem_cons_of_mem _ (ih hcs later)

/-- A value that is found under a key is one of the values under its beginning. -/
theorem mem_values_of_value? {α : Type} {c : Codec α} {lead k : Bytes} {s : Store} {l : List α}
    {a : α} (hl : values c lead s = .ok l) (hlead : lead <+: k) (ha : value? c k s = .ok (some a)) :
    a ∈ l := by
  unfold value? Store.read? at ha
  replace ha := mapError_ok_iff.1 ha
  cases hk : s.get? k with
  | none =>
    rw [hk] at ha
    cases ha
  | some v =>
    rw [hk] at ha
    have read : Store.decode c v = .ok a := by
      dsimp only at ha
      cases hv : Store.decode c v with
      | ok a' =>
        rw [hv] at ha
        exact congrArg _ (Option.some.inj (Except.ok.inj ha))
      | error e =>
        rw [hv] at ha
        cases ha
    have scanned : (k, v) ∈ s.scan lead :=
      Store.mem_scan_iff.2 ⟨List.isPrefixOf_iff_prefix.2 hlead, hk⟩
    exact mem_of_mapM_ok (mapError_ok_iff.1 hl) scanned read

end Ledger

namespace Harness

/-! ## The moments of a run -/

/-- Moments lead to where their operations do. -/
theorem Leads.eq_afterAll {h h' : Harness} {ms : List Moment} (all : Leads h ms h') :
    h' = afterAll (ms.map Moment.op) h := by
  induction all with
  | nil => rfl
  | cons _ _ ih => exact ih

/-- A run begins with a chain that has begun. -/
theorem Run.initialized (r : Run) : r.begun.app.isInitialized = true :=
  (inStep_init r.app r.around r.config r.begun r.begun_eq).begun

/-- What every change of the ledger keeps, the store has at every moment if it had it in the
beginning. -/
theorem Run.stored_at {P : Store → Prop} (kept : App.Kept P) {r : Run}
    (begun : P r.begun.app.store) {past : List Moment} {h : Harness}
    (upTo : Leads r.begun past h) : P h.app.store := by
  have stored : r.begun.Stored P := ⟨r.initialized, begun⟩
  rw [upTo.eq_afterAll]
  exact (stored.afterAll kept _).store

/-! ## The configuration -/

/-- The parts of the operations leave the configuration. -/
theorem config_keeps (c : HarnessConfig) :
    Keeps (fun h => h.config = c) fun _ h => h.config = c where
  refuse _ _ _ same := same
  openBlock _ _ _ := ends_openBlock (fun _ _ same _ => same) (fun _ _ _ same _ _ => same)
    fun _ _ same _ _ => same
  push _ _ _ _ same := same
  endBlock := ends_endBlock (fun _ _ same _ => same) (fun _ _ _ _ same _ _ => same)
    fun _ _ _ _ same _ _ => same
  fund _ _ := ends_fund (fun _ _ _ same _ => same) fun _ _ same _ => same
  rng _ _ same := same
  addKey _ _ same := same

/-- At every moment of a run the configuration is the one that it was begun with. -/
theorem Run.config_at {r : Run} {past : List Moment} {h : Harness} (upTo : Leads r.begun past h) :
    h.config = r.config := by
  have begun : r.begun.config = r.config := by
    obtain ⟨-, d, key, rng, v, app₁, app₂, registry, -, -, -, -, begun⟩ :=
      init_ok_iff.1 r.begun_eq
    rw [begun]
  rw [upTo.eq_afterAll]
  refine afterAll_induction (P := fun h => h.config = r.config) (fun op h same => ?_) _ begun
  exact ((config_keeps r.config).op (fun _ same => same) (fun _ _ same => same) op).stateAfter same

/-! ## The validators -/

/-- The validators of a run can be read in the beginning, in the order of their operators'
addresses, and at every moment they are the same. -/
theorem Run.exists_validators (r : Run) :
    ∃ vs, (vs.Pairwise fun v w =>
        v.operatorAddress.bytes.toList < w.operatorAddress.bytes.toList) ∧
      ∀ past h, Leads r.begun past h → Ledger.validators h.app.store = .ok vs := by
  have kept := App.Kept.any fun d => App.Kept.any fun o =>
    Ledger.kept_fixed (Ledger.genesisStore d o .fresh)
  obtain ⟨d, o, same⟩ := (stored_init kept r.app r.begun_eq
    fun _ _ d o _ _ _ => ⟨d, o, .refl _⟩).store
  obtain ⟨vs, hvs, -, order⟩ := Ledger.validators_genesisStore (d := d) (o := o)
  refine ⟨vs, order.imp Ledger.lt_of_append_lt, fun past h upTo => ?_⟩
  have fixed := Run.stored_at (Ledger.kept_fixed r.begun.app.store) (.refl _) upTo
  rw [Ledger.validators_fixed fixed, Ledger.validators_fixed same, hvs]

end Harness

end TestChain
