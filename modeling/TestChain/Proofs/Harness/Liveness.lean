import Mathlib.Algebra.BigOperators.Group.Finset.Basic
import TestChain.Proofs.Harness.Clock
import TestChain.Proofs.Harness.Constant

/-!
# Who has proposed blocks

The signing info of a validator is written anew when a chain begins and then only where a block is
executed, for the proposer of that block. So at every moment of a run it tells nothing but how many
of the executed blocks the validator has proposed (`liveness_counts_proposals`). A block that was
rejected, or that failed before it was executed, leaves the store (`store_endBlock`), and no other
operation writes signing infos (`Op.Single.quiet`).
-/

namespace TestChain

/-- The signing info of a validator that has missed nothing and was never shut out, after some
blocks of its own. -/
def SigningInfo.proposed (a : ConsensusAddress) (n : Nat) : SigningInfo where
  address := a
  startHeight := 0
  indexOffset := UInt64.ofNat n
  jailedUntil := 0
  tombstoned := false
  missedBlocks := 0

/-- A vote for a block counts one more of them. -/
theorem SigningInfo.countVote_proposed (a : ConsensusAddress) (n : Nat) :
    Ledger.countVote (.proposed a n) .commit = .proposed a (n + 1) := by
  unfold Ledger.countVote SigningInfo.proposed
  rw [if_pos rfl, UInt64.ofNat_add]
  rfl

namespace Ledger

variable {s t : Store} {a b : ConsensusAddress} {i : SigningInfo}

/-- The signing info of another validator is not touched by it. -/
theorem signingInfo?_write_of_ne (hne : b ≠ a) (i : SigningInfo) (s : Store) :
    signingInfo? b (s.write SigningInfo.codec (signingInfoKey a) i) = signingInfo? b s := by
  have apart : signingInfoKey b ≠ signingInfoKey a := fun h =>
    hne (signingInfoKey_injective _ _ h)
  unfold signingInfo? value?
  rw [(s.read?_write SigningInfo.codec _ (signingInfoKey b) i.faithful_codec (by decide)).2 apart]

/-- The single vote of a validator that has a signing info is counted in it. -/
theorem recordVotes_single {power : Int64} (hi : signingInfo? a s = .ok (some i)) :
    recordVotes [⟨a, power, .commit⟩] s =
      .ok () (s.write SigningInfo.codec (signingInfoKey a) (countVote i .commit)) := by
  have counted : recordVote ⟨a, power, .commit⟩ s =
      .ok () (s.write SigningInfo.codec (signingInfoKey a) (countVote i .commit)) := by
    unfold recordVote
    rw [bind_of_ok (ask_of_ok hi)]
    rfl
  exact bind_of_ok counted _

end Ledger

namespace Harness

/-! ## Blocks that are executed -/

/-- Closing the open block executes it: the block is closed, or fails only to be committed. -/
def finalizes (h : Harness) : Bool :=
  match endBlock h with
  | .ok _ _ => true
  | .error (.application .commit _) _ => true
  | .error _ _ => false

/-- The open block is executed exactly if its proposal is accepted and the application executes
it. -/
theorem finalizes_iff {h : Harness} :
    h.finalizes = true ↔ ∃ b a f a', h.cycle = .building b ∧ h.Accepted b a ∧
      App.finalizeBlock (h.finalizeRequest b) a = .ok f a' := by
  unfold finalizes
  constructor
  · intro executed
    cases hr : endBlock h with
    | ok f h' =>
      obtain ⟨b, a, building, closing, -⟩ := endBlock_ok hr
      obtain ⟨a₂, a₃, n, accepted, finalized, -⟩ := closing.steps
      exact ⟨b, a₂, f, a₃, building, accepted, finalized⟩
    | error e h' =>
      rw [hr] at executed
      rcases endBlock_error hr with ⟨refused, -⟩ | ⟨b, a, building, failure, -⟩
      · cases Refusal.of_block refused <;> cases executed
      · cases failure with
        | commit accepted finalized _ => exact ⟨b, _, _, _, building, accepted, finalized⟩
        | _ => cases executed
  · rintro ⟨b, a, f, a', building, accepted, finalized⟩
    obtain ⟨proposed, status, a₁, prepared, processed, judged⟩ := accepted.steps
    -- The calls up to the execution succeed, so that only the commit is left.
    rw [endBlock_eq h b building, prepared]
    dsimp only
    rw [processed]
    dsimp only
    rw [if_pos judged, finalized]
    dsimp only
    cases App.commit a' with
    | ok n a'' => rfl
    | error e a'' => rfl

/-- Where the open block is executed its votes are counted, and what is done besides changes no
signing info; otherwise the store stays as it was. -/
theorem store_endBlock {h : Harness} (few : h.FewVotes) :
    if h.finalizes then ∃ s, Ledger.recordVotes h.context.votes h.app.store = .ok () s ∧
      s.AgreeOn Ledger.Quiet (stateAfter endBlock h).app.store
    else (stateAfter endBlock h).app.store = h.app.store := by
  have executed {b : PendingBlock} {a a' : App} {f : FinalizeResponse} (accepted : h.Accepted b a)
      (finalized : App.finalizeBlock (h.finalizeRequest b) a = .ok f a') :
      ∃ s, Ledger.recordVotes h.context.votes h.app.store = .ok () s ∧
        s.AgreeOn Ledger.Quiet a'.store := by
    obtain ⟨-, -, s, counted, -, rfl⟩ := App.finalizeBlock_ok_iff.1 finalized
    rw [accepted.untouched.store] at counted
    exact ⟨s, counted, Ledger.quiet_executeAll b.txs s⟩
  unfold finalizes
  cases hr : endBlock h with
  | ok f h' =>
    rw [stateAfter_of_ok hr]
    obtain ⟨b, a, -, closing, rfl⟩ := endBlock_ok hr
    obtain ⟨a₂, a₃, n, accepted, finalized, committed⟩ := closing.steps
    obtain ⟨s, counted, quiet⟩ := executed accepted finalized
    obtain ⟨-, -, height, -, rfl⟩ := App.commit_ok_iff.1 committed
    exact ⟨s, counted, quiet.trans (.commit _)⟩
  | error e h' =>
    rw [stateAfter_of_error hr]
    rcases endBlock_error hr with ⟨refused, rfl⟩ | ⟨b, a, -, failure, rfl⟩
    · cases Refusal.of_block refused <;> rfl
    · cases failure with
      | commit accepted finalized committed =>
        obtain ⟨s, counted, quiet⟩ := executed accepted finalized
        refine ⟨s, counted, ?_⟩
        rcases App.commit_error_iff.1 committed with stopped | ⟨-, -, rfl, -⟩
        · rw [← (untouched_of_stopped stopped).store] at quiet
          exact quiet
        · exact quiet
      | prepare prepared =>
        exact (Failure.prepare prepared).store_eq few (.prepare _)
      | process prepared processed =>
        exact (Failure.process prepared processed).store_eq few (.process _)
      | rejected prepared processed refused =>
        exact (Failure.rejected prepared processed refused).store_eq few (.rejected _ _)
      | finalize accepted finalized =>
        exact (Failure.finalize accepted finalized).store_eq few (.finalize _)

/-! ## Other operations -/

/-- The store agrees with another one in all that coins do not touch. -/
def Quietly (s : Store) (h : Harness) : Prop :=
  s.AgreeOn Ledger.Quiet h.app.store

/-- Opening a block writes nothing. -/
theorem quietly_openBlock (s : Store) (epoch : Bool) (seconds : UInt64)
    (proposer : Option ConsensusAddress) :
    Ends (Quietly s) (openBlock epoch seconds proposer) (fun _ => Quietly s)
      fun _ => Quietly s := by
  refine ends_openBlock ?refused ?failed ?opened
  case refused => exact fun h e quiet _ => quiet
  case failed =>
    intro h e a quiet _ failed
    rcases App.beginBlock_error_iff.1 failed with stopped | ⟨-, rfl, -⟩
    · show s.AgreeOn Ledger.Quiet a.store
      rw [(untouched_of_stopped stopped).store]
      exact quiet
    · exact quiet
  case opened =>
    intro h a quiet _ opened
    obtain ⟨-, -, -, rfl⟩ := App.beginBlock_ok_iff.1 opened
    exact quiet

/-- Crediting an account writes only what belongs to coins. -/
theorem quietly_fund (s : Store) (address : AccountAddress) (coins : Coins) :
    Ends (Quietly s) (fund address coins) (fun _ => Quietly s) fun _ => Quietly s := by
  have minted := (Ledger.keptByCoins_quiet s).mint address coins
  refine ends_fund ?failed ?credited
  case failed =>
    intro h e a quiet failed
    rcases App.fundAccount_error_iff.1 failed with stopped | ⟨-, t, refused, rfl⟩
    · show s.AgreeOn Ledger.Quiet a.store
      rw [(untouched_of_stopped stopped).store]
      exact quiet
    · exact minted.of_error quiet refused
  case credited =>
    intro h a quiet credited
    obtain ⟨-, t, done, rfl⟩ := App.fundAccount_ok_iff.1 credited
    exact minted.of_ok quiet done

/-- What the operations aside are made of writes only what belongs to coins. -/
theorem quietly_keepsAside (s : Store) : KeepsAside (Quietly s) where
  fund := quietly_fund s
  rng _ _ quiet := quiet
  addKey _ _ quiet := quiet
  turn k _ quiet := by cases k <;> exact quiet

/-- A single operation that does not close a block writes only what belongs to coins. -/
theorem Op.Single.quiet {op : Op} (single : op.Single) (other : op ≠ .endBlock) (h : Harness) :
    h.app.store.AgreeOn Ledger.Quiet (op.next h).app.store := by
  let P := Quietly h.app.store
  have start : P h := .refl _
  have answered {x : Call Unit} (hx : Ends P x (fun _ => P) fun _ => P) :
      P (stateAfter (do x; return Reply.done) h) :=
    Ends.stateAfter (hx.bind fun _ => .pure fun _ quiet => quiet) start
  cases single with
  | beginBlock epoch seconds =>
    exact answered ((ReadOnly.ensureReady.ends P).bind fun _ =>
      (ReadOnly.selectProposer.ends P).bind fun p => quietly_openBlock _ epoch seconds p)
  | beginBlockWith operator epoch seconds =>
    exact answered ((ReadOnly.ensureReady.ends P).bind fun _ =>
      ((ReadOnly.consensusAddressOf operator).ends P).bind fun p =>
        quietly_openBlock _ epoch seconds (some p))
  | execute tx =>
    refine answered fun h₁ quiet => ?_
    cases hr : Harness.execute tx h₁ with
    | ok u h' =>
      obtain ⟨b, -, rfl⟩ := execute_ok_iff.1 hr
      exact quiet
    | error e h' =>
      rw [execute_error hr]
      exact quiet
  | endBlock => exact absurd rfl other
  | aside aside => exact (quietly_keepsAside h.app.store).op aside start

/-! ## Proposals -/

/-- The proposer of the block that an operation executes, if it executes one. -/
def Moment.proposal? (m : Moment) : Option ConsensusAddress :=
  match m.op with
  | .endBlock => if m.before.finalizes then m.before.context.proposer else none
  | _ => none

/-- The proposers of the blocks that were executed, in order. -/
def proposals (ms : List Moment) : List ConsensusAddress :=
  ms.filterMap Moment.proposal?

/-- An operation executes the block of a proposer exactly if it closes a block that has the
proposer, whose proposal is accepted and which the application executes. -/
theorem Moment.proposal?_eq_some_iff {m : Moment} {p : ConsensusAddress} :
    m.proposal? = some p ↔ m.op = .endBlock ∧ m.before.context.proposer = some p ∧
      ∃ b a f a', m.before.cycle = .building b ∧ m.before.Accepted b a ∧
        App.finalizeBlock (m.before.finalizeRequest b) a = .ok f a' := by
  rw [← finalizes_iff]
  unfold Moment.proposal?
  split
  · rename_i op_eq
    rw [op_eq]
    cases m.before.finalizes with
    | true => simp
    | false => simp
  · rename_i other
    exact iff_of_false (fun h => (nomatch h)) fun h => other h.1

/-- The votes of a block are that of its proposer, if it has one. -/
def Voting (h : Harness) : Prop :=
  h.context.votes = h.context.proposer.toList.map fun p => ⟨p, proposerPower, .commit⟩

/-- The next context has the vote of its proposer. -/
theorem nextContext_voting (c : BlockContext) (epoch : Bool) (seconds : UInt64)
    (p : Option ConsensusAddress) :
    (nextContext c epoch seconds p).votes = p.toList.map fun p => ⟨p, proposerPower, .commit⟩ := by
  unfold nextContext
  cases p with
  | none => rfl
  | some p => rfl

/-- A block with the vote of its proposer has at most one. -/
theorem Voting.fewVotes {h : Harness} (voting : h.Voting) : h.FewVotes := by
  unfold FewVotes
  rw [voting]
  cases h.context.proposer with
  | none => exact Nat.zero_le 1
  | some p => exact Nat.le_refl 1

/-- An operation that executes the block of a proposer counts its vote and touches no other signing
info; any other operation touches none. -/
theorem Moment.store_of_proposal? (m : Moment) (single : m.op.Single) (voting : m.before.Voting) :
    match m.proposal? with
    | none => m.before.app.store.AgreeOn Ledger.Quiet m.after.app.store
    | some p => ∃ s,
      Ledger.recordVotes [⟨p, proposerPower, .commit⟩] m.before.app.store = .ok () s ∧
        s.AgreeOn Ledger.Quiet m.after.app.store := by
  by_cases closes : m.op = .endBlock
  · have after : m.after = stateAfter Harness.endBlock m.before := by
      unfold Moment.after Op.next
      rw [closes]
      exact stateAfter_answered Harness.endBlock .block m.before
    have left := store_endBlock voting.fewVotes
    unfold Moment.proposal?
    rw [closes, after]
    dsimp only
    cases executed : m.before.finalizes with
    | false =>
      rw [executed] at left
      rw [if_neg (by simp)] at left ⊢
      rw [left]
      exact .refl _
    | true =>
      rw [executed, if_pos rfl] at left
      obtain ⟨s, counted, quiet⟩ := left
      rw [voting] at counted
      rw [if_pos rfl]
      cases proposer : m.before.context.proposer with
      | none =>
        rw [proposer] at counted
        cases counted
        exact quiet
      | some p =>
        rw [proposer] at counted
        exact ⟨s, counted, quiet⟩
  · have unproposed : m.proposal? = none := by
      unfold Moment.proposal?
      split
      · rename_i op_eq
        exact absurd op_eq closes
      · rfl
    rw [unproposed]
    exact single.quiet closes m.before

/-! ## Who proposes -/

section

variable {vs : List Validator} {h h' : Harness} {p : ConsensusAddress}

/-- The consensus address of an operator is that of a stored validator. -/
theorem mem_of_consensusAddressOf {operator : ValidatorAddress}
    (hvs : Ledger.validators h.app.store = .ok vs)
    (found : consensusAddressOf operator h = .ok p h') : ∃ v ∈ vs, v.consensusAddress = p := by
  obtain ⟨v, hv, rfl, -⟩ := consensusAddressOf_ok_iff.1 found
  exact ⟨v, Ledger.mem_values_of_value? hvs (Ledger.validatorKey_begins operator) hv, rfl⟩

/-- A proposer that is chosen is a stored validator. -/
theorem Chosen.mem {c : HarnessConfig} {height : UInt64} {s : Store}
    {chosen : Option ConsensusAddress} (choice : Chosen c height s chosen)
    (hvs : Ledger.validators s = .ok vs) (found : chosen = some p) :
    ∃ v ∈ vs, v.consensusAddress = p := by
  -- `found` stays an equation: in the index of `choice` it would be solved by evaluating addresses
  cases choice with
  | none => cases found
  | first _ hvs' =>
    cases hvs.symm.trans hvs'
    exact ⟨_, List.mem_cons_self, Option.some.inj found⟩
  | turn _ hvs' hv =>
    cases hvs.symm.trans hvs'
    have taken := List.mem_of_getElem? hv
    exact ⟨_, (List.mem_filter.1 taken).1, Option.some.inj found⟩
  | fixed _ hv =>
    exact ⟨_, Ledger.mem_values_of_value? hvs (Ledger.validatorKey_begins _) hv,
      Option.some.inj found⟩

/-- A block is only opened for a stored validator. -/
theorem Moment.mem_of_opened {m : Moment} {s : UInt64} (opening : m.opening? = some s)
    (hvs : Ledger.validators m.before.app.store = .ok vs)
    (hp : m.after.context.proposer = some p) : ∃ v ∈ vs, v.consensusAddress = p := by
  obtain ⟨-, -, found, -⟩ := Moment.opened_for opening
  rw [hp] at found
  cases hop : m.op with
  | beginBlock epoch seconds =>
    rw [hop] at found
    exact (selectProposer_ok_iff.1 found).2.mem hvs rfl
  | beginBlockWith operator epoch seconds =>
    rw [hop, Op.proposer, map_eq_pure_bind] at found
    obtain ⟨a, h₁, found, answered⟩ := bind_ok_iff.1 found
    cases answered
    exact mem_of_consensusAddressOf hvs found
  | _ =>
    rw [hop] at found
    cases found

end

/-! ## One moment -/

/-- The signing infos tell who has proposed the blocks that were executed. -/
structure Counts (vs : List Validator) (past : List Moment) (h : Harness) : Prop where
  /-- Each tells how many of them its validator has proposed. -/
  infos : ∀ v ∈ vs, Ledger.signingInfo? v.consensusAddress h.app.store =
    .ok (some (.proposed v.consensusAddress ((proposals past).count v.consensusAddress)))
  /-- Each of them was proposed by a validator. -/
  known : ∀ p ∈ proposals past, ∃ v ∈ vs, v.consensusAddress = p
  /-- The open block has the vote of its proposer. -/
  voting : h.Voting
  /-- That is a validator. -/
  proposer : ∀ p, h.context.proposer = some p → ∃ v ∈ vs, v.consensusAddress = p

/-- Each moment keeps what the signing infos tell. -/
theorem Counts.step {vs : List Validator} {past : List Moment} {m : Moment}
    (single : m.op.Single) (hvs : Ledger.validators m.before.app.store = .ok vs)
    (counts : Counts vs past m.before) : Counts vs (past ++ [m]) m.after := by
  have moved := m.context_of_opening single
  have left := m.store_of_proposal? single counts.voting
  -- The context is that of the moment before, or a new one for the proposer that was found.
  have context : m.after.Voting ∧
      ∀ p, m.after.context.proposer = some p → ∃ v ∈ vs, v.consensusAddress = p := by
    unfold Voting
    cases opening : m.opening? with
    | none =>
      rw [opening] at moved
      rw [moved]
      exact ⟨counts.voting, counts.proposer⟩
    | some s =>
      obtain ⟨epoch, seconds, -, opened⟩ := Moment.opened_for opening
      obtain ⟨-, a, -, after⟩ := openBlock_ok_iff.1 opened
      refine ⟨?_, fun p hp => Moment.mem_of_opened opening hvs hp⟩
      calc m.after.context.votes
          = (nextContext m.before.context epoch seconds m.after.context.proposer).votes :=
            congrArg (fun h : Harness => h.context.votes) after
        _ = m.after.context.proposer.toList.map fun p => ⟨p, proposerPower, .commit⟩ :=
            nextContext_voting _ _ _ _
  cases proposal : m.proposal? with
  | none =>
    rw [proposal] at left
    have same : proposals (past ++ [m]) = proposals past := by
      unfold proposals
      rw [List.filterMap_append, List.filterMap_cons_none proposal, List.filterMap_nil,
        List.append_nil]
    refine ⟨fun v hv => ?_, by rw [same]; exact counts.known, context.1, context.2⟩
    rw [same, Ledger.signingInfo?_quiet left, counts.infos v hv]
  | some p =>
    rw [proposal] at left
    obtain ⟨s, counted, quiet⟩ := left
    have more : proposals (past ++ [m]) = proposals past ++ [p] := by
      unfold proposals
      rw [List.filterMap_append, List.filterMap_cons_some proposal, List.filterMap_nil]
    obtain ⟨w, hw, own⟩ := counts.proposer p (Moment.proposal?_eq_some_iff.1 proposal).2.1
    have before := own ▸ counts.infos w hw
    rw [Ledger.recordVotes_single before, SigningInfo.countVote_proposed] at counted
    cases counted
    refine ⟨fun v hv => ?_, fun q hq => ?_, context.1, context.2⟩
    · rw [more, Ledger.signingInfo?_quiet quiet, List.count_append]
      by_cases same : v.consensusAddress = p
      · rw [same, Ledger.signingInfo?_write, List.count_singleton_self]
      · rw [Ledger.signingInfo?_write_of_ne same, counts.infos v hv,
          List.count_singleton, if_neg (by simpa using Ne.symm same), Nat.add_zero]
    · rw [more] at hq
      rcases List.mem_append.1 hq with earlier | last
      · exact counts.known q earlier
      · rw [List.mem_singleton.1 last]
        exact ⟨w, hw, own⟩

/-! ## A whole run -/

/-- Of validators for which fresh signing infos are written, or that had one, each has one. -/
theorem signingInfo?_of_seed {vs : List Validator} {height : UInt64} {a a' : App} {u : PUnit}
    (hok : (vs.forM fun v => App.setSigningInfo (.fresh v.consensusAddress height)) a = .ok u a')
    {b : ConsensusAddress} (hb : b ∈ vs.map Validator.consensusAddress ∨
      Ledger.signingInfo? b a.store = .ok (some (.fresh b height))) :
    Ledger.signingInfo? b a'.store = .ok (some (.fresh b height)) := by
  induction vs generalizing a with
  | nil =>
    cases hok
    rcases hb with listed | had
    · exact absurd listed List.not_mem_nil
    · exact had
  | cons v rest ih =>
    obtain ⟨_, a₁, hv, hrest⟩ := bind_ok_iff.1 hok
    obtain ⟨-, s, written, rfl⟩ := App.setSigningInfo_ok_iff.1 hv
    obtain ⟨known, -, -, rfl⟩ := Ledger.setSigningInfo_ok_iff.1 written
    refine ih hrest ?_
    by_cases same : b = v.consensusAddress
    · exact .inr (by rw [same]; exact Ledger.signingInfo?_write _ _ _)
    · rcases hb with listed | had
      · rw [List.map_cons, List.mem_cons] at listed
        exact .inl (listed.resolve_left same)
      · exact .inr ((Ledger.signingInfo?_write_of_ne same _ _).trans had)

/-- A harness begins with fresh signing infos for its validators, whatever its document had. -/
theorem Run.counts_begun (r : Run) {vs : List Validator}
    (hvs : Ledger.validators r.begun.app.store = .ok vs) : Counts vs [] r.begun := by
  obtain ⟨-, d, key, rng, v, app₁, app₂, registry, -, -, hseed, -, begun⟩ :=
    init_ok_iff.1 r.begun_eq
  have same := (agree_seedSigningInfos hseed).scan fun _ hk => Ledger.unsigned_validator hk
  unfold seedSigningInfos at hseed
  obtain ⟨ws, a₁, hask, hforM⟩ := bind_ok_iff.1 hseed
  obtain ⟨s₁, asked, rfl⟩ := App.onLedger_ok_iff.1 hask
  have hws : Ledger.validators app₁.store = .ok ws := by
    unfold Ledger.ask at asked
    cases hq : Ledger.validators app₁.store with
    | ok l =>
      rw [hq] at asked
      exact congrArg _ (EStateM.Result.ok.inj asked).1
    | error e =>
      rw [hq] at asked
      cases asked
  have listed : ws = vs := by
    have again : Ledger.validators app₂.store = Ledger.validators app₁.store := by
      unfold Ledger.validators Ledger.values
      rw [Store.readAll_eq_of_scan_eq _ same]
    rw [begun] at hvs
    exact Except.ok.inj (hws.symm.trans (again.symm.trans hvs))
  rw [begun]
  refine ⟨fun v hv => ?_, fun _ hp => absurd hp List.not_mem_nil, rfl, fun _ hp => nomatch hp⟩
  exact signingInfo?_of_seed hforM (.inl (listed ▸ List.mem_map_of_mem hv))

/-- At each moment of a run the signing infos tell who has proposed the blocks so far. -/
theorem Run.counts (r : Run) {vs : List Validator}
    (known : ∀ past h, Leads r.begun past h → Ledger.validators h.app.store = .ok vs)
    {past : List Moment} {h : Harness} (upTo : Leads r.begun past h) : Counts vs past h := by
  have both : Leads r.begun past h ∧ Counts vs past h := by
    refine upTo.of_start (P := fun past h => Leads r.begun past h ∧ Counts vs past h) ?step ?start
    case step =>
      intro past m single ⟨upTo, counts⟩
      exact ⟨upTo.append (single.leads m.before), counts.step single (known _ _ upTo)⟩
    case start => exact ⟨.nil _, r.counts_begun (known _ _ (.nil _))⟩
  exact both.2

/-- In a list of which all are among some distinct ones, these together are counted as often as the
list is long. -/
theorem sum_count_eq_length {α : Type} [DecidableEq α] {as ps : List α} (distinct : as.Nodup)
    (all : ∀ p ∈ ps, p ∈ as) : (as.map fun a => ps.count a).sum = ps.length :=
  calc (as.map fun a => ps.count a).sum
      = ∑ a ∈ as.toFinset, ps.count a := (List.sum_toFinset _ distinct).symm
    _ = ∑ a ∈ as.toFinset, (ps : Multiset α).count a := by simp only [Multiset.coe_count]
    _ = (ps : Multiset α).card := Multiset.sum_count_eq_card (by simpa using all)
    _ = ps.length := Multiset.coe_card ps

/-- Two validators with different keys have one consensus address. -/
def Collision (vs : List Validator) : Prop :=
  ∃ v ∈ vs, ∃ w ∈ vs, v.consensusKey ≠ w.consensusKey ∧ v.consensusAddress = w.consensusAddress

/-- Validators with distinct keys have distinct consensus addresses, unless two of these collide. -/
theorem nodup_or_collision {vs : List Validator}
    (distinct : (vs.map Validator.consensusKey).Nodup) :
    (vs.map Validator.consensusAddress).Nodup ∨ Collision vs := by
  by_cases collision : Collision vs
  · exact .inr collision
  · refine .inl (List.Nodup.map_on (fun v hv w hw same => ?_) distinct.of_map)
    have keys : v.consensusKey = w.consensusKey := by
      by_contra other
      exact collision ⟨v, hv, w, hw, other, same⟩
    exact List.inj_on_of_nodup_map distinct hv hw keys

/-- At every moment of a run each validator has a signing info, counted from the height zero,
without missed blocks and never shut out, that tells how many of the blocks that were executed so
far the validator has proposed. A block is only counted if it is closed, its proposal is accepted
and the application executes it; whether it is then committed makes no difference. So where the
validators have distinct keys the signing infos together tell the number of all executed blocks that
had a proposer, unless two of the addresses collide. -/
theorem liveness_counts_proposals (r : Run)
    (within : (proposals r.moments).length < UInt64.size) :
    ∃ (vs : List Validator) (info : Validator → SigningInfo),
      Ledger.validators r.now.app.store = .ok vs ∧
      (∀ v ∈ vs, Ledger.signingInfo? v.consensusAddress r.now.app.store = .ok (some (info v)) ∧
        (info v).startHeight = 0 ∧ (info v).missedBlocks = 0 ∧ (info v).tombstoned = false ∧
        (info v).jailedUntil = 0 ∧
        (info v).indexOffset.toNat = (proposals r.moments).count v.consensusAddress) ∧
      ((vs.map Validator.consensusKey).Nodup →
        (vs.map fun v => (info v).indexOffset.toNat).sum = (proposals r.moments).length ∨
          Collision vs) ∧
      ∀ m ∈ r.moments, ∀ p, m.proposal? = some p ↔
        m.op = .endBlock ∧ m.before.context.proposer = some p ∧
          ∃ b a f a', m.before.cycle = .building b ∧ m.before.Accepted b a ∧
            App.finalizeBlock (m.before.finalizeRequest b) a = .ok f a' := by
  obtain ⟨vs, -, known⟩ := r.exists_validators
  have counts := r.counts known r.leads
  let info (v : Validator) : SigningInfo :=
    .proposed v.consensusAddress ((proposals r.moments).count v.consensusAddress)
  have offset (v : Validator) :
      (info v).indexOffset.toNat = (proposals r.moments).count v.consensusAddress :=
    UInt64.toNat_ofNat_of_lt' (Nat.lt_of_le_of_lt List.count_le_length within)
  refine ⟨vs, info, known _ _ r.leads,
    fun v hv => ⟨counts.infos v hv, rfl, rfl, rfl, rfl, offset v⟩, fun distinct => ?_,
    fun m _ p => Moment.proposal?_eq_some_iff⟩
  refine (nodup_or_collision distinct).imp_left fun addresses => ?_
  simp only [offset]
  have total := sum_count_eq_length addresses fun p hp => by
    obtain ⟨v, hv, rfl⟩ := counts.known p hp
    exact List.mem_map_of_mem hv
  rwa [List.map_map] at total

/-- Where an empty block is made first, its proposer is the first one. -/
theorem Skips.proposals {h h' : Harness} {p : ConsensusAddress} (skips : h.Skips (some p) h')
    (rest : List Op) : Harness.proposals (Harness.moments (.skipBlock :: rest) h) =
      p :: Harness.proposals (Harness.moments rest h') := by
  obtain ⟨-, h₁, proposer, ⟨f, closes⟩, -, all⟩ := skips.moments
  have executed : (Moment.mk .endBlock h₁).proposal? = some p := by
    unfold Moment.proposal? finalizes
    rw [closes]
    exact proposer
  unfold Harness.proposals
  rw [all, List.filterMap_cons_none rfl, List.filterMap_cons_some executed]

/-- A block whose proposal is to be rejected is opened without being counted for anyone. -/
theorem Seats.rejects {h : Harness} {vs : List Validator} {height : UInt64}
    (seats : h.Seats vs height) {v : Validator} (turn : inTurn? vs height = some v) :
    openings (moments [.turn .rejectNext, .skipBlock] h) = [h.config.blockTimeSeconds] ∧
      proposals (moments [.turn .rejectNext, .skipBlock] h) = [] := by
  rw [← seats.height] at turn
  let armed := onApp (Knob.turn .rejectNext) h
  have selected : selectProposer armed = .ok (some v.consensusAddress) armed :=
    selectProposer_ok_iff.2 ⟨rfl, .turn seats.robin seats.validators turn⟩
  have inStep : armed.InStep := inStep_turn .rejectNext h seats.calm.inStep
  have spared : armed.app.failures.contains .beginBlock = false := by
    show h.app.failures.contains .beginBlock = false
    rw [seats.calm.spared]
    rfl
  have idle : armed.cycle = .idle := seats.calm.idle
  have opens := inStep.opens idle spared false h.config.blockTimeSeconds (some v.consensusAddress)
  let h₁ := armed.opened
    (nextContext armed.context false h.config.blockTimeSeconds (some v.consensusAddress))
  have begins : beginBlock false armed.config.blockTimeSeconds armed = .ok () h₁ := by
    unfold beginBlock
    rw [bind_of_ok (ensureReady_of_idle idle), bind_of_ok selected]
    exact opens
  obtain ⟨succeeds, -⟩ :=
    Moment.of_ok (.beginBlock false armed.config.blockTimeSeconds) (bind_of_ok begins _)
  have opening : (Moment.mk (.beginBlock false armed.config.blockTimeSeconds) armed).opening? =
      some h.config.blockTimeSeconds := Moment.opening?_eq_some_iff.2 ⟨succeeds, rfl⟩
  -- The block is not executed, for its proposal is not accepted.
  have rejected : (Moment.mk .endBlock h₁).proposal? = none := by
    refine Option.eq_none_iff_forall_ne_some.2 fun p hp => ?_
    obtain ⟨-, -, b, a, -, -, -, accepted, -⟩ := Moment.proposal?_eq_some_iff.1 hp
    cases accepted.unarmed
  have all : moments [.turn .rejectNext, .skipBlock] h = [⟨.turn .rejectNext, h⟩,
      ⟨.beginBlock false armed.config.blockTimeSeconds, armed⟩, ⟨.endBlock, h₁⟩] := by
    show _ :: moments [.skipBlock] armed = _
    rw [moments_skipBlock begins]
    rfl
  have turning : (Moment.mk (.turn .rejectNext) h).opening? = none := ite_self _
  have closing : (Moment.mk .endBlock h₁).opening? = none := ite_self _
  unfold openings proposals
  rw [all, List.filterMap_cons_none turning, List.filterMap_cons_some opening,
    List.filterMap_cons_none closing, List.filterMap_cons_none rfl, List.filterMap_cons_none rfl,
    List.filterMap_cons_none rejected]
  exact ⟨rfl, rfl⟩

/-- The validators of the committee have different addresses in the consensus. -/
theorem nodup_committee : (committee.map Validator.consensusAddress).Nodup := by
  -- They differ in their first bytes. Each is evaluated on its own, which takes a while.
  have first : (member 1 .bonded false).consensusAddress.bytes[0] = 11 := by decide +kernel
  have second : (member 2 .bonded true).consensusAddress.bytes[0] = 70 := by decide +kernel
  have third : (member 3 .unbonded false).consensusAddress.bytes[0] = 180 := by decide +kernel
  have fourth : (member 4 .bonded false).consensusAddress.bytes[0] = 101 := by decide +kernel
  refine .of_map (fun a : ConsensusAddress => a.bytes[0]) ?_
  unfold committee
  simp only [List.map_cons, List.map_nil, first, second, third, fourth]
  decide

/-- In the committee four blocks are opened in turn, and the proposal of the last one is rejected.
So two blocks are counted for the first validator and only one for the last; none is counted for the
one that is jailed and for the one that is not bonded. -/
theorem exists_counted_proposals :
    ∃ (r : Run) (info : Validator → SigningInfo), (proposals r.moments).length < UInt64.size ∧
      Ledger.validators r.now.app.store = .ok committee ∧ (openings r.moments).length = 4 ∧
      proposals r.moments = [(member 1 .bonded false).consensusAddress,
        (member 4 .bonded false).consensusAddress, (member 1 .bonded false).consensusAddress] ∧
      (∀ v ∈ committee,
        Ledger.signingInfo? v.consensusAddress r.now.app.store = .ok (some (info v))) ∧
      committee.map (fun v => (info v).indexOffset.toNat) = [2, 0, 0, 1] := by
  obtain ⟨r₀, -, robin, seats⟩ := exists_seats
  obtain ⟨h₁, skips₁, seats₁⟩ := seats.exists_skips (v := member 1 .bonded false) rfl
  obtain ⟨h₂, skips₂, seats₂⟩ := seats₁.exists_skips (v := member 4 .bonded false) rfl
  obtain ⟨h₃, skips₃, seats₃⟩ := seats₂.exists_skips (v := member 1 .bonded false) rfl
  obtain ⟨opened, uncounted⟩ := seats₃.rejects (v := member 4 .bonded false) rfl
  let r : Run :=
    { r₀ with ops := [.skipBlock, .skipBlock, .skipBlock, .turn .rejectNext, .skipBlock] }
  have openings_eq : (openings r.moments).length = 4 := by
    show (openings (moments [.skipBlock, .skipBlock, .skipBlock, .turn .rejectNext, .skipBlock]
      r₀.begun)).length = 4
    rw [skips₁.openings, skips₂.openings, skips₃.openings, opened]
    rfl
  have proposals_eq : proposals r.moments = [(member 1 .bonded false).consensusAddress,
      (member 4 .bonded false).consensusAddress, (member 1 .bonded false).consensusAddress] := by
    show proposals (moments [.skipBlock, .skipBlock, .skipBlock, .turn .rejectNext, .skipBlock]
      r₀.begun) = _
    rw [skips₁.proposals, skips₂.proposals, skips₃.proposals, uncounted]
  have within : (proposals r.moments).length < UInt64.size := by
    rw [proposals_eq]
    decide
  obtain ⟨vs, info, hvs, infos, -, -⟩ := liveness_counts_proposals r within
  obtain ⟨ws, -, known⟩ := r.exists_validators
  have same : vs = committee := by
    have first := known [] r.begun (.nil _)
    have last := known _ _ r.leads
    exact Except.ok.inj (hvs.symm.trans (last.trans (first.symm.trans seats.validators)))
  rw [same] at hvs infos
  have offset (v : Validator) (hv : v ∈ committee) := (infos v hv).2.2.2.2.2
  have counts {a b c d : ConsensusAddress} (distinct : [a, b, c, d].Nodup) :
      [a, b, c, d].map (fun x => [a, d, a].count x) = [2, 0, 0, 1] := by
    simp only [List.nodup_cons, List.mem_cons, not_or] at distinct
    simp [List.count_cons, distinct, Ne.symm]
  refine ⟨r, info, within, hvs, openings_eq, proposals_eq, fun v hv => (infos v hv).1, ?_⟩
  rw [← counts nodup_committee, ← proposals_eq]
  exact List.map_congr_left offset

end Harness

end TestChain
