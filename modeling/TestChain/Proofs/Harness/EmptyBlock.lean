import TestChain.Proofs.Harness.FailedCycle
import TestChain.Proofs.Harness.Halted

/-!
# Empty blocks

An empty block counts votes and commits; it leaves the validators. Whether a proposer is found is
told by the validators and the configuration alone (`exists_selectProposer_iff`), although the turn
of a proposer goes with the height. So once a harness has begun to make empty blocks, no proposer
will be missing for the next one (`ready_skipBlocks`), and where it cannot begin it leaves
everything as it was (`beginBlock_of_not_ready`).
-/

namespace TestChain

/-- Counting votes leaves the supply, the balances and the validators. -/
theorem Ledger.sameSums_recordVotes (votes : List Vote) (s : Store) :
    SameSums s (stateAfter (recordVotes votes) s) :=
  (ends_recordVotes (fun a i _ h => h.trans (sameSums_writeSigningInfo _ a i)) votes).stateAfter
    (.refl s)

namespace Harness

/-! ## Finding a proposer -/

/-- The validators that can take a turn. -/
def eligible (vs : List Validator) : List Validator :=
  vs.filter fun v => v.isBonded && !v.jailed

/-- It is some validator's turn exactly if a validator can take one, whatever the height. -/
theorem exists_inTurn?_iff (vs : List Validator) (height : UInt64) :
    (∃ v, inTurn? vs height = some v) ↔ eligible vs ≠ [] := by
  show (∃ v, (eligible vs)[height.toNat % (eligible vs).length]? = some v) ↔ _
  rw [← List.length_pos_iff]
  constructor
  · rintro ⟨v, hv⟩
    exact Nat.zero_lt_of_lt (List.getElem?_eq_some_iff.1 hv).1
  · intro hpos
    exact ⟨_, List.getElem?_eq_getElem (Nat.mod_lt _ hpos)⟩

/-- A proposer can be chosen for a configuration from the validators in a store. -/
def Chooses (c : HarnessConfig) (s : Store) : Prop :=
  match c.proposer with
  | .none => True
  | .firstValidator => ∃ vs, Ledger.validators s = .ok vs ∧ vs ≠ []
  | .roundRobin => ∃ vs, Ledger.validators s = .ok vs ∧ eligible vs ≠ []
  | .fixed operator => ∃ v, Ledger.validator? operator s = .ok (some v)

/-- What a configuration chooses as the proposer at a height, from the validators in a store. -/
inductive Chosen (c : HarnessConfig) (height : UInt64) (s : Store) :
    Option ConsensusAddress → Prop where
  /-- There is none. -/
  | none (hc : c.proposer = .none) : Chosen c height s none
  /-- It is the first validator. -/
  | first {v : Validator} {rest : List Validator} (hc : c.proposer = .firstValidator)
    (hvs : Ledger.validators s = .ok (v :: rest)) : Chosen c height s (some v.consensusAddress)
  /-- It is the validator whose turn it is. -/
  | turn {v : Validator} {vs : List Validator} (hc : c.proposer = .roundRobin)
    (hvs : Ledger.validators s = .ok vs) (hv : inTurn? vs height = some v) :
    Chosen c height s (some v.consensusAddress)
  /-- It is the validator of the operator. -/
  | fixed {v : Validator} {operator : ValidatorAddress} (hc : c.proposer = .fixed operator)
    (hv : Ledger.validator? operator s = .ok (some v)) :
    Chosen c height s (some v.consensusAddress)

/-- The proposer that is selected is the one that the configuration chooses, and selecting it
changes nothing. -/
theorem selectProposer_ok_iff {h h' : Harness} {p : Option ConsensusAddress} :
    selectProposer h = .ok p h' ↔ h' = h ∧ Chosen h.config h.context.height h.app.store p := by
  unfold selectProposer
  rw [get_bind_eq]
  constructor
  · intro hok
    cases hc : h.config.proposer with
    | none =>
      rw [hc] at hok
      cases hok
      exact ⟨rfl, .none hc⟩
    | firstValidator =>
      rw [hc] at hok
      obtain ⟨vs, h₁, hask, hchosen⟩ := bind_ok_iff.1 hok
      obtain ⟨hvs, rfl⟩ := ask_ok_iff.1 hask
      cases vs with
      | nil => cases hchosen
      | cons v rest =>
        obtain ⟨rfl, rfl⟩ := EStateM.Result.ok.inj hchosen
        exact ⟨rfl, .first hc hvs⟩
    | roundRobin =>
      rw [hc] at hok
      obtain ⟨vs, h₁, hask, hchosen⟩ := bind_ok_iff.1 hok
      obtain ⟨hvs, rfl⟩ := ask_ok_iff.1 hask
      rw [get_bind_eq] at hchosen
      cases hv : inTurn? vs h₁.context.height with
      | none =>
        rw [hv] at hchosen
        cases hchosen
      | some v =>
        rw [hv] at hchosen
        obtain ⟨rfl, rfl⟩ := EStateM.Result.ok.inj hchosen
        exact ⟨rfl, .turn hc hvs hv⟩
    | fixed operator =>
      rw [hc] at hok
      dsimp only at hok
      rw [map_eq_pure_bind] at hok
      obtain ⟨a, h₁, haddress, hchosen⟩ := bind_ok_iff.1 hok
      obtain ⟨v, hv, rfl, rfl⟩ := consensusAddressOf_ok_iff.1 haddress
      obtain ⟨rfl, rfl⟩ := EStateM.Result.ok.inj hchosen
      exact ⟨rfl, .fixed hc hv⟩
  · rintro ⟨rfl, chosen⟩
    cases chosen with
    | none hc =>
      rw [hc]
      rfl
    | first hc hvs =>
      rw [hc]
      exact bind_of_ok (ask_ok_iff.2 ⟨hvs, rfl⟩) _
    | turn hc hvs hv =>
      rw [hc]
      dsimp only
      rw [bind_of_ok (ask_ok_iff.2 ⟨hvs, rfl⟩), get_bind_eq, hv]
      rfl
    | fixed hc hv =>
      rw [hc]
      dsimp only
      rw [map_eq_pure_bind]
      exact bind_of_ok (consensusAddressOf_ok_iff.2 ⟨_, hv, rfl, rfl⟩) _

/-- Whether a proposer is chosen does not depend on the height. -/
theorem exists_selectProposer_iff (h : Harness) :
    (∃ p h', selectProposer h = .ok p h') ↔ Chooses h.config h.app.store := by
  unfold Chooses
  constructor
  · rintro ⟨p, h', hok⟩
    cases (selectProposer_ok_iff.1 hok).2 with
    | none hc =>
      rw [hc]
      trivial
    | first hc hvs =>
      rw [hc]
      exact ⟨_, hvs, List.cons_ne_nil _ _⟩
    | turn hc hvs hv =>
      rw [hc]
      exact ⟨_, hvs, (exists_inTurn?_iff _ _).1 ⟨_, hv⟩⟩
    | fixed hc hv =>
      rw [hc]
      exact ⟨_, hv⟩
  · have selected {p : Option ConsensusAddress}
        (chosen : Chosen h.config h.context.height h.app.store p) :
        ∃ p h', selectProposer h = .ok p h' :=
      ⟨p, h, selectProposer_ok_iff.2 ⟨rfl, chosen⟩⟩
    intro chooses
    cases hc : h.config.proposer with
    | none => exact selected (.none hc)
    | firstValidator =>
      rw [hc] at chooses
      obtain ⟨vs, hvs, hne⟩ := chooses
      cases vs with
      | nil => exact absurd rfl hne
      | cons v rest => exact selected (.first hc hvs)
    | roundRobin =>
      rw [hc] at chooses
      obtain ⟨vs, hvs, hne⟩ := chooses
      obtain ⟨v, hv⟩ := (exists_inTurn?_iff vs h.context.height).2 hne
      exact selected (.turn hc hvs hv)
    | fixed operator =>
      rw [hc] at chooses
      obtain ⟨v, hv⟩ := chooses
      exact selected (.fixed hc hv)

/-- The same validators choose alike. -/
theorem Chooses.of_same {c : HarnessConfig} {s s' : Store} (h : Chooses c s)
    (same : s'.scan Ledger.validatorLead = s.scan Ledger.validatorLead) : Chooses c s' := by
  have all : Ledger.validators s' = Ledger.validators s := by
    unfold Ledger.validators Ledger.values
    rw [Store.readAll_eq_of_scan_eq _ same]
  have one : ∀ operator, Ledger.validator? operator s' = Ledger.validator? operator s :=
    fun operator => by
      have hlead : Ledger.validatorLead.isPrefixOf (Ledger.validatorKey operator) = true :=
        List.isPrefixOf_iff_prefix.2 (List.prefix_append _ _)
      unfold Ledger.validator? Ledger.value? Store.read?
      rw [Store.get?_eq_of_scan_eq hlead same]
  unfold Chooses at h ⊢
  simpa only [all, one] using h

/-! ## Making empty blocks -/

/-- The next block can be opened, as far as the harness is concerned. -/
structure Ready (h : Harness) : Prop where
  /-- No block is open. -/
  idle : h.cycle = .idle
  /-- A proposer is chosen. -/
  chooses : Chooses h.config h.app.store

/-- An empty block is open, in a harness that has chosen a proposer. -/
structure Underway (h : Harness) : Prop where
  /-- The block is empty. -/
  empty : ∃ b, h.cycle = .building b ∧ b.txs = []
  /-- A proposer is chosen. -/
  chooses : Chooses h.config h.app.store

/-- Where the harness is not ready the next block is refused, which changes nothing. -/
theorem beginBlock_of_not_ready {h : Harness} (hr : ¬h.Ready) (epoch : Bool) (seconds : UInt64) :
    ∃ e, beginBlock epoch seconds h = .error e h := by
  unfold beginBlock
  rcases ReadOnly.ensureReady.bind_eq _ h with ⟨_, -, h_eq⟩ | ⟨e, -, h_eq⟩
  · rw [h_eq]
    rcases ReadOnly.selectProposer.bind_eq _ h with ⟨p, hselect, h_eq⟩ | ⟨e, -, h_eq⟩
    · rw [h_eq]
      -- A proposer is there, so it is the cycle that is elsewhere.
      have chooses := (exists_selectProposer_iff h).1 ⟨p, h, hselect⟩
      cases hidle : h.cycle.ensureIdle .beginBlock with
      | ok u => exact absurd ⟨ensureIdle_ok_iff.1 hidle, chooses⟩ hr
      | error e => exact ⟨e, openBlock_error_iff.2 (.inl ⟨hidle, rfl⟩)⟩
    · exact ⟨e, h_eq⟩
  · exact ⟨e, h_eq⟩

/-- Where the harness is not ready an empty block is refused, which changes nothing. -/
theorem increaseTime_of_not_ready {h : Harness} (hr : ¬h.Ready) (seconds : UInt64) :
    ∃ e, increaseTime seconds h = .error e h := by
  obtain ⟨e, refused⟩ := beginBlock_of_not_ready hr false seconds
  exact ⟨e, bind_of_error refused _⟩

/-- A ready harness opens a block, unless the application refuses it. -/
theorem ready_openBlock (epoch : Bool) (seconds : UInt64) (proposer : Option ConsensusAddress) :
    Ends Ready (openBlock epoch seconds proposer) (fun _ => Underway) fun e _ => ¬Refusal e := by
  refine ends_openBlock ?refused ?failed ?opened
  case refused =>
    intro h e ready hidle
    rw [ready.idle] at hidle
    cases hidle
  case failed => exact fun h e a _ _ _ refusal => refusal.not_breaks (.beginBlock e)
  case opened =>
    intro h a ready _ ha
    obtain ⟨-, -, -, rfl⟩ := App.beginBlock_ok_iff.1 ha
    exact ⟨⟨_, rfl, rfl⟩, ready.chooses⟩

/-- A ready harness is not refused the next block. -/
theorem ready_beginBlock (epoch : Bool) (seconds : UInt64) :
    Ends Ready (beginBlock epoch seconds) (fun _ => Underway) fun e _ => ¬Refusal e := by
  intro h ready
  have passed := ensureReady_of_idle ready.idle
  obtain ⟨p, h₁, hselect⟩ := (exists_selectProposer_iff h).2 ready.chooses
  have same : h₁ = h := (stateAfter_of_ok hselect).symm.trans (ReadOnly.selectProposer h)
  subst same
  unfold beginBlock
  rw [bind_of_ok passed, bind_of_ok hselect]
  exact ready_openBlock epoch seconds p h₁ ready

/-- An empty block leaves the supply, the balances and the validators. -/
theorem Closing.sameSums {h : Harness} {b : PendingBlock} {f : FinalizeResponse} {a : App}
    (closing : h.Closing b f a) (hempty : b.txs = []) : Ledger.SameSums h.app.store a.store := by
  obtain ⟨a₂, a₃, n, accepted, hfinalize, hcommit⟩ := closing.steps
  obtain ⟨-, -, s, hvotes, -, rfl⟩ := App.finalizeBlock_ok_iff.1 hfinalize
  obtain ⟨-, -, height, -, rfl⟩ := App.commit_ok_iff.1 hcommit
  -- Of the four calls only the last two write: signing infos, and what is committed.
  have counted : Ledger.SameSums h.app.store s := by
    have same := Ledger.sameSums_recordVotes (h.finalizeRequest b).votes a₂.store
    rw [accepted.untouched.store] at hvotes same
    rwa [stateAfter_of_ok hvotes] at same
  have executed : (Ledger.executeAll b.txs s).2 = s := by
    rw [hempty]
    rfl
  show Ledger.SameSums h.app.store (Ledger.executeAll b.txs s).2.commit
  rw [executed]
  exact counted.trans (Ledger.sameSums_commit s)

/-- An empty block that is closed leaves the harness ready for the next one. -/
theorem ready_endBlock :
    Ends Underway endBlock (fun _ => Ready) fun e _ => ¬Refusal e := by
  refine ends_endBlock ?refused ?failed ?closed
  case refused =>
    intro h e underway hblock
    obtain ⟨b, hb, -⟩ := underway.empty
    rw [hb] at hblock
    cases hblock
  case failed =>
    exact fun h b e a _ _ failure refusal => refusal.not_breaks failure.breaks
  case closed =>
    intro h b f a underway hb closing
    obtain ⟨b', hb', hempty⟩ := underway.empty
    rw [hb] at hb'
    cases hb'
    exact ⟨rfl, underway.chooses.of_same (closing.sameSums hempty).validators⟩

/-- A ready harness that makes an empty block is ready for the next one, or the application has
failed. -/
theorem ready_increaseTime (seconds : UInt64) :
    Ends Ready (increaseTime seconds) (fun _ => Ready) fun e _ => ¬Refusal e :=
  (ready_beginBlock false seconds).bind fun _ => ready_endBlock

/-- A ready harness skips a block, or the application fails. -/
theorem ready_skipBlock : Ends Ready skipBlock (fun _ => Ready) fun e _ => ¬Refusal e :=
  fun h => ready_increaseTime h.config.blockTimeSeconds h

/-- A ready harness skips as many blocks as are asked for, or the application fails. -/
theorem ready_skipBlocks (n : Nat) :
    Ends Ready (skipBlocks n) (fun _ => Ready) fun e _ => ¬Refusal e := by
  induction n with
  | zero => exact .pure fun _ ready => ready
  | succ n ih => exact ready_skipBlock.bind fun _ => ih

end Harness

end TestChain
