import Mathlib.Data.List.Rotate
import TestChain.Proofs.Harness.Clock
import TestChain.Proofs.Harness.Constant

/-!
# Proposers in turn

A harness that lets validators propose in turn reads the validators and the height anew for each
block. Neither the validators nor the configuration ever change in a run, and the height moves by
one with each block that is opened, so the block after the height `t` has the validator at `t`
modulo their number as its proposer (`proposers_eq`), whatever is done between the blocks. As many
blocks as there are validators that can take a turn are thus a round: the proposers are these
validators, rotated (`map_getElem?_range'`). The main theorem is `one_turn_a_round`.
-/

namespace TestChain.Harness

/-- The elements of a list at as many indices as it has, counted on cyclically, are its elements,
rotated. -/
theorem map_getElem?_range' {α : Type} (l : List α) (k : Nat) :
    (List.range' k l.length).map (fun t => l[t % l.length]?) = (l.rotate k).map some := by
  apply List.ext_getElem
  · simp
  · intro i hi hi'
    have bound : i < l.length := by simpa using hi
    have index : (k + i) % l.length < l.length := Nat.mod_lt _ (by omega)
    simp [List.getElem_rotate, Nat.add_comm i k, List.getElem?_eq_getElem index]

/-! ## The proposer of a block -/

/-- The proposers of the blocks that were opened, in order. -/
def proposers (ms : List Moment) : List (Option ConsensusAddress) :=
  ms.filterMap fun m => m.opening?.map fun _ => m.after.context.proposer

/-- A moment that opens no block adds no proposer. -/
theorem proposers_cons_of_none {m : Moment} (hm : m.opening? = none) (rest : List Moment) :
    proposers (m :: rest) = proposers rest := by
  unfold proposers
  rw [List.filterMap_cons_none (by rw [hm]; rfl)]

/-- A moment that opens a block adds the proposer of that block. -/
theorem proposers_cons_of_some {m : Moment} {s : UInt64} (hm : m.opening? = some s)
    (rest : List Moment) : proposers (m :: rest) = m.after.context.proposer :: proposers rest := by
  unfold proposers
  rw [List.filterMap_cons_some (by rw [hm]; rfl)]

/-- An operation that does not name the proposer of a block. -/
def Op.Unnamed : Op → Prop
  | .beginBlockWith _ _ _ => False
  | _ => True

/-- The moments of an empty block name no proposer. -/
theorem unnamed_of_mem_emptyBlock {seconds : UInt64} {h : Harness} {m : Moment}
    (hm : m ∈ emptyBlock seconds h) : m.op.Unnamed := by
  unfold emptyBlock at hm
  rcases List.mem_cons.1 hm with rfl | hm
  · trivial
  · split at hm
    · rw [List.mem_singleton.1 hm]
      trivial
    · cases hm

/-- Neither do those of several ones. -/
theorem unnamed_of_mem_emptyBlocks {n : Nat} {h : Harness} {m : Moment}
    (hm : m ∈ emptyBlocks n h) : m.op.Unnamed := by
  induction n generalizing h with
  | zero => cases hm
  | succ n ih =>
    rcases List.mem_append.1 hm with hm | hm
    · exact unnamed_of_mem_emptyBlock hm
    · split at hm
      · exact ih hm
      · cases hm

/-- Where no operation names a proposer, each block that is opened is for the one that is chosen. -/
theorem chosen_of_unnamed {ops : List Op} (unnamed : ∀ op ∈ ops, op.Unnamed) {h : Harness} :
    ∀ m ∈ moments ops h, ∀ s, m.opening? = some s →
      ∃ epoch seconds, m.op = .beginBlock epoch seconds := by
  have all : ∀ m ∈ moments ops h, m.op.Unnamed := by
    induction ops generalizing h with
    | nil => exact List.forall_mem_nil _
    | cons op rest ih =>
      obtain ⟨first, later⟩ := List.forall_mem_cons.1 unnamed
      intro m hm
      rcases List.mem_append.1 hm with hm | hm
      · cases op with
        | skipBlock => exact unnamed_of_mem_emptyBlock hm
        | skipBlocks n => exact unnamed_of_mem_emptyBlocks hm
        | increaseTime seconds => exact unnamed_of_mem_emptyBlock hm
        | _ =>
          rw [List.mem_singleton.1 hm]
          exact first
      · exact ih later m hm
  intro m hm s opening
  have increments := (Moment.opening?_eq_some_iff.1 opening).2
  have kind := all m hm
  cases hop : m.op with
  | beginBlock epoch seconds => exact ⟨epoch, seconds, rfl⟩
  | beginBlockWith operator epoch seconds =>
    rw [hop] at kind
    exact kind.elim
  | _ =>
    rw [hop] at increments
    cases increments

/-- With proposers in turn the one is chosen whose turn it is. -/
theorem selectProposer_of_roundRobin {h : Harness} {vs : List Validator}
    (robin : h.config.proposer = .roundRobin) (hvs : Ledger.validators h.app.store = .ok vs) :
    selectProposer h = match inTurn? vs h.context.height with
      | some v => .ok (some v.consensusAddress) h
      | none => .error .noValidators h := by
  unfold selectProposer
  rw [get_bind_eq, robin]
  dsimp only
  rw [bind_of_ok (ask_ok_iff.2 ⟨hvs, rfl⟩), get_bind_eq]
  cases inTurn? vs h.context.height with
  | none => rfl
  | some v => rfl

/-! ## In turn -/

section

variable {r : Run} {vs : List Validator}

/-- Where each block is opened for the proposer that is chosen, the proposers are the validators
that are found at the heights from which the blocks were opened, counted on cyclically. -/
theorem proposers_eq (robin : r.config.proposer = .roundRobin)
    (known : ∀ past h, Leads r.begun past h → Ledger.validators h.app.store = .ok vs)
    {past ms : List Moment} {h h' : Harness} (upTo : Leads r.begun past h) (all : Leads h ms h')
    (chosen : ∀ m ∈ ms, ∀ s, m.opening? = some s →
      ∃ epoch seconds, m.op = .beginBlock epoch seconds)
    (within : h.context.height.toNat + (openings ms).length < UInt64.size) :
    proposers ms = (List.range' h.context.height.toNat (openings ms).length).map fun t =>
      (eligible vs)[t % (eligible vs).length]?.map Validator.consensusAddress := by
  induction all generalizing past with
  | nil => rfl
  | @cons m rest _ single follow ih =>
    have further : Leads r.begun (past ++ [m]) m.after := upTo.append (single.leads m.before)
    have later := ih further fun n hn => chosen n (List.mem_cons_of_mem _ hn)
    have moved := m.context_of_opening single
    unfold openings at later within ⊢
    cases opening : m.opening? with
    | none =>
      rw [opening] at moved
      rw [List.filterMap_cons_none opening] at within ⊢
      rw [proposers_cons_of_none opening, ← moved]
      exact later (by rw [moved]; exact within)
    | some s =>
      rw [opening] at moved
      obtain ⟨epoch, seconds, op_eq⟩ := chosen m List.mem_cons_self s opening
      rw [List.filterMap_cons_some opening, List.length_cons] at within ⊢
      rw [proposers_cons_of_some opening, List.range'_succ, List.map_cons]
      -- The height is a word, so the next block is opened from one more.
      have height : m.after.context.height.toNat = m.before.context.height.toNat + 1 := by
        rw [moved.2.1, UInt64.toNat_add]
        exact Nat.mod_eq_of_lt (by simp only [UInt64.toNat_one, UInt64.size] at *; omega)
      obtain ⟨-, -, selected, -⟩ := Moment.opened_for opening
      have inTurns : m.before.config.proposer = .roundRobin := (Run.config_at upTo).symm ▸ robin
      rw [op_eq, Op.proposer, selectProposer_of_roundRobin inTurns (known _ _ upTo)] at selected
      have turn : m.after.context.proposer = (inTurn? vs m.before.context.height).map
          Validator.consensusAddress := by
        cases hturn : inTurn? vs m.before.context.height with
        | none =>
          rw [hturn] at selected
          cases selected
        | some v =>
          rw [hturn] at selected
          exact (EStateM.Result.ok.inj selected).1.symm
      rw [later (by rw [height]; omega), height]
      exact congrArg (· :: _) turn

end

/-- The validators that can take a turn take one each, from the one at a height on. -/
structure Round (vs : List Validator) (height : Nat) (turns : List Validator) : Prop where
  /-- They are in the order of their operators' addresses. -/
  order : (eligible vs).Pairwise fun v w =>
    v.operatorAddress.bytes.toList < w.operatorAddress.bytes.toList
  /-- The order of the turns is this order, begun at the height modulo their number. -/
  cyclic : turns = (eligible vs).rotate (height % (eligible vs).length)
  /-- Each validator that is bonded and not jailed has exactly one turn. -/
  once : ∀ v ∈ vs, v.isBonded = true → v.jailed = false → turns.count v = 1
  /-- No other has one. -/
  others : ∀ v ∈ turns, v ∈ vs ∧ v.isBonded = true ∧ v.jailed = false

/-- In a list without doubles, each that can take a turn takes one. -/
theorem exists_round {vs : List Validator} (height : Nat)
    (order : vs.Pairwise fun v w =>
      v.operatorAddress.bytes.toList < w.operatorAddress.bytes.toList) :
    Round vs height ((eligible vs).rotate (height % (eligible vs).length)) := by
  have mem (v : Validator) : v ∈ eligible vs ↔ v ∈ vs ∧ v.isBonded = true ∧ v.jailed = false := by
    unfold eligible
    rw [List.mem_filter, Bool.and_eq_true, Bool.not_eq_true']
  have ordered := order.filter fun v => v.isBonded && !v.jailed
  have distinct : (eligible vs).Nodup := ordered.imp fun before same => by
    rw [same] at before
    exact List.lt_irrefl _ before
  refine ⟨ordered, rfl, fun v hv bonded free => ?_, fun v hv => (mem v).1 (List.mem_rotate.1 hv)⟩
  exact List.count_eq_one_of_mem (List.nodup_rotate.2 distinct)
    (List.mem_rotate.2 ((mem v).2 ⟨hv, bonded, free⟩))

/-- In a run with proposers in turn, as many blocks as there are validators that can take a turn
give each of them exactly one, in the order of their operators' addresses, beginning with the one at
the height before the blocks. It makes no difference what else is done or refused between the
blocks, as long as each of them is opened for the proposer that is chosen and heights are words.
Where no validator can take a turn, a harness that is not halted opens no block, and nothing
changes. -/
theorem one_turn_a_round (r : Run) (robin : r.config.proposer = .roundRobin) :
    ∃ vs, Ledger.validators r.now.app.store = .ok vs ∧
      (∀ ops, (∀ m ∈ moments ops r.now, ∀ s, m.opening? = some s →
          ∃ epoch seconds, m.op = .beginBlock epoch seconds) →
        (openings (moments ops r.now)).length = (eligible vs).length →
        r.now.context.height.toNat + (eligible vs).length < UInt64.size →
        ∃ turns, Round vs r.now.context.height.toNat turns ∧
          proposers (moments ops r.now) = turns.map fun v => some v.consensusAddress) ∧
      (eligible vs = [] → r.now.cycle ≠ .halted → ∀ epoch seconds,
        beginBlock epoch seconds r.now = .error .noValidators r.now) := by
  obtain ⟨vs, order, known⟩ := r.exists_validators
  have now := known _ _ r.leads
  refine ⟨vs, now, fun ops chosen count within => ?_, fun none going epoch seconds => ?_⟩
  · refine ⟨_, exists_round r.now.context.height.toNat order, ?_⟩
    have turns := proposers_eq robin known r.leads (leads_moments ops r.now) chosen
      (by rw [count]; exact within)
    rw [turns, count, List.rotate_mod]
    have rotated := congrArg (List.map (Option.map Validator.consensusAddress))
      (map_getElem?_range' (eligible vs) r.now.context.height.toNat)
    rwa [List.map_map, List.map_map] at rotated
  · have unturned : inTurn? vs r.now.context.height = .none := by
      show (eligible vs)[_]? = .none
      rw [none]
      rfl
    have refused : selectProposer r.now = .error .noValidators r.now := by
      rw [selectProposer_of_roundRobin ((Run.config_at r.leads).symm ▸ robin) now, unturned]
    unfold beginBlock
    rw [bind_of_ok (ensureReady_of_going going)]
    exact bind_of_error refused _

/-- In the committee, where one validator is jailed and one is not bonded, the two blocks after the
first one are a round of the other two, that of the second one's turn first. A transaction is
refused between them, since no block is open. -/
theorem exists_full_round :
    ∃ (r : Run) (tx : Tx), r.config.proposer = .roundRobin ∧ r.now.context.height = 1 ∧
      Ledger.validators r.now.app.store = .ok [member 1 .bonded false, member 2 .bonded true,
        member 3 .unbonded false, member 4 .bonded false] ∧
      Round committee 1 [member 4 .bonded false, member 1 .bonded false] ∧
      (Moment.mk (.execute tx) (Op.skipBlock.next r.now)).succeeds = false ∧
      proposers (moments [.skipBlock, .execute tx, .skipBlock] r.now) =
        [some (member 4 .bonded false).consensusAddress,
          some (member 1 .bonded false).consensusAddress] := by
  obtain ⟨r₀, -, robin, seats⟩ := exists_seats
  obtain ⟨h₁, skips₁, seats₁⟩ := seats.exists_skips (v := member 1 .bonded false) rfl
  obtain ⟨h₂, skips₂, seats₂⟩ := seats₁.exists_skips (v := member 4 .bonded false) rfl
  obtain ⟨h₃, skips₃, -⟩ := seats₂.exists_skips (v := member 1 .bonded false) rfl
  let r : Run := { r₀ with ops := [.skipBlock] }
  have now : r.now = h₁ := skips₁.moments.1
  have height : r.now.context.height = 1 := by
    rw [now]
    exact seats₁.height
  have validators : Ledger.validators r.now.app.store = .ok committee := by
    rw [now]
    exact seats₁.validators
  -- Behind the first of the two blocks no block is open, so that nothing can be queued.
  let tx : Tx := ⟨#[1]⟩
  obtain ⟨fails, after⟩ := Moment.execute_of_idle seats₂.calm.idle tx
  have same : Op.next (.execute tx) h₂ = h₂ := after
  have count : (openings (moments [.skipBlock, .execute tx, .skipBlock] r.now)).length =
      (eligible committee).length := by
    have unopened : (Moment.mk (.execute tx) h₂).opening? = none := ite_self _
    rw [now, skips₂.openings, (Op.Single.execute tx).openings, unopened, same, skips₃.openings]
    rfl
  have unnamed : ∀ op ∈ [Op.skipBlock, .execute tx, .skipBlock], op.Unnamed := by
    simp [Op.Unnamed]
  obtain ⟨vs, hvs, rotates, -⟩ := one_turn_a_round r robin
  cases validators.symm.trans hvs
  obtain ⟨turns, round, proposed⟩ :=
    rotates _ (chosen_of_unnamed unnamed) count (by rw [height]; decide)
  have cyclic := round.cyclic
  rw [height] at cyclic round
  have order : turns = [member 4 .bonded false, member 1 .bonded false] := cyclic
  rw [order] at round proposed
  refine ⟨r, tx, robin, height, validators, round, ?_, proposed⟩
  rw [now, skips₂.moments.1]
  exact fails

end TestChain.Harness
