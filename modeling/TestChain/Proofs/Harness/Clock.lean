import Mathlib.Data.List.Chain
import TestChain.Invariant
import TestChain.Proofs.Harness.Blocks

/-!
# Height and time

Height and time of the context move only where a block is opened, by one and by the seconds to that
block (`Moment.context_of_opening`). The seconds are made milliseconds and added with two operations
that stop at the largest word; taken one after the other over any number of blocks they come to the
sum of all seconds, which stops there once (`toNat_addSeconds`). The main theorem is `clock_of_run`.
-/

namespace TestChain

/-- The time some seconds later stops at the largest word once, although the milliseconds stop there
before they are added. -/
theorem toNat_addSeconds (time seconds : UInt64) :
    (addSeconds time seconds).toNat =
      min (UInt64.size - 1) (time.toNat + 1000 * seconds.toNat) := by
  unfold addSeconds
  have thousand : (1000 : UInt64).toNat = 1000 := by decide
  rw [Word.toNat_addSat, Word.toNat_mulSat, thousand]
  omega

/-- A context that is not before another one of the same chain. -/
structure BlockContext.NotBefore (c d : BlockContext) : Prop where
  /-- The chain is the same. -/
  chainId : d.chainId = c.chainId
  /-- The height is not smaller. -/
  height : c.height ≤ d.height
  /-- The time is not earlier. -/
  time : c.time ≤ d.time

/-- What is not before what is not before a context is not before it. -/
theorem BlockContext.NotBefore.trans {c d e : BlockContext} (h : c.NotBefore d)
    (h' : d.NotBefore e) : c.NotBefore e :=
  ⟨h'.chainId.trans h.chainId, UInt64.le_trans h.height h'.height, UInt64.le_trans h.time h'.time⟩

/-- Not being before is passed on along contexts. -/
instance : Trans BlockContext.NotBefore BlockContext.NotBefore BlockContext.NotBefore :=
  ⟨BlockContext.NotBefore.trans⟩

namespace Harness

/-- The next context is as many seconds later as are to be counted. -/
theorem nextContext_time (c : BlockContext) (epoch : Bool) (seconds : UInt64)
    (proposer : Option ConsensusAddress) :
    (nextContext c epoch seconds proposer).time = addSeconds c.time (increment epoch seconds) := by
  unfold nextContext
  cases proposer with
  | none => rfl
  | some p => rfl

/-- The seconds to the blocks that were opened, in order. -/
def openings (ms : List Moment) : List UInt64 :=
  ms.filterMap Moment.opening?

/-- The number of seconds to all blocks that were opened. -/
def elapsed (ms : List Moment) : Nat :=
  ((openings ms).map UInt64.toNat).sum

/-- With a moment that opens no block the openings stay. -/
theorem openings_snoc_of_none {m : Moment} (hm : m.opening? = none) (past : List Moment) :
    openings (past ++ [m]) = openings past := by
  unfold openings
  rw [List.filterMap_append, List.filterMap_cons_none hm, List.filterMap_nil, List.append_nil]

/-- A moment that opens a block adds its seconds to the openings. -/
theorem openings_snoc_of_some {m : Moment} {s : UInt64} (hm : m.opening? = some s)
    (past : List Moment) : openings (past ++ [m]) = openings past ++ [s] := by
  unfold openings
  rw [List.filterMap_append, List.filterMap_cons_some hm, List.filterMap_nil]

/-! ## One moment -/

/-- Where a block is opened the context is the next one, after the seconds to that block; everywhere
else it stays. -/
theorem Moment.context_of_opening (m : Moment) (single : m.op.Single) :
    match m.opening? with
    | none => m.after.context = m.before.context
    | some s =>
      m.after.context.chainId = m.before.context.chainId ∧
        m.after.context.height = m.before.context.height + 1 ∧
        m.after.context.time = addSeconds m.before.context.time s := by
  have opening_of_fails (fails : m.succeeds = false) : m.opening? = none := by
    unfold Moment.opening?
    rw [fails]
    rfl
  have opening_of_none (op_eq : m.op.increment? = none) : m.opening? = none := by
    unfold Moment.opening?
    rw [op_eq, ite_self]
  cases m.course single with
  | opened epoch seconds p succeeds op_eq opened =>
    have opening : m.opening? = some (increment epoch seconds) := by
      unfold Moment.opening?
      rw [if_pos succeeds, op_eq]
    obtain ⟨-, a, -, after⟩ := openBlock_ok_iff.1 opened
    rw [opening, after]
    exact ⟨nextContext_chainId _ _ _ _, nextContext_height _ _ _ _, nextContext_time _ _ _ _⟩
  | queued tx b op_eq succeeds building after_eq =>
    have opening : m.opening? = none := opening_of_none (by rw [op_eq]; rfl)
    rw [opening, after_eq]
  | closed f op_eq succeeds closed =>
    have opening : m.opening? = none := opening_of_none (by rw [op_eq]; rfl)
    obtain ⟨b, a, -, -, after⟩ := endBlock_ok closed
    rw [opening, after]
  | refused fails after_eq => rw [opening_of_fails fails, after_eq]
  | broken a fails after_eq => rw [opening_of_fails fails, after_eq]
  | aside aside =>
    rw [opening_of_none aside.increment?_eq]
    exact (aside.samePlace m.before).context

/-! ## A whole run -/

/-- The context shows what comes of the blocks that were opened since a chain began. -/
structure Shows (chainId : String) (g : UInt64) (past : List Moment) (h : Harness) : Prop where
  /-- It is of the chain. -/
  chainId : h.context.chainId = chainId
  /-- The height is the number of the blocks, as far as a word can tell. -/
  height : h.context.height = UInt64.ofNat (openings past).length
  /-- The time is that of the beginning with all seconds added at once. -/
  time : h.context.time.toNat = min (UInt64.size - 1) (g.toNat + 1000 * elapsed past)

/-- Each moment keeps what the context shows. -/
theorem Shows.step {chainId : String} {g : UInt64} {past : List Moment} {m : Moment}
    (single : m.op.Single) (shows : Shows chainId g past m.before) :
    Shows chainId g (past ++ [m]) m.after := by
  have moved := m.context_of_opening single
  cases hm : m.opening? with
  | none =>
    rw [hm] at moved
    have same := openings_snoc_of_none hm past
    refine ⟨by rw [moved, shows.chainId], by rw [moved, same, shows.height], ?_⟩
    unfold elapsed
    rw [moved, same]
    exact shows.time
  | some s =>
    rw [hm] at moved
    obtain ⟨chain, height, time⟩ := moved
    have more := openings_snoc_of_some hm past
    refine ⟨chain.trans shows.chainId, ?_, ?_⟩
    · rw [height, shows.height, more, List.length_append, List.length_singleton,
        UInt64.ofNat_add]
      rfl
    · have all : elapsed (past ++ [m]) = elapsed past + s.toNat := by
        unfold elapsed
        rw [more, List.map_append, List.sum_append, List.map_singleton, List.sum_singleton]
      rw [time, toNat_addSeconds, shows.time, all]
      -- Stopping at the end twice is stopping there once.
      omega

/-- The context of a run shows the blocks that were opened up to each of its moments. -/
theorem Run.shows (r : Run) {past : List Moment} {h : Harness} (upTo : Leads r.begun past h) :
    Shows r.config.chainId r.genesisTime past h := by
  refine upTo.of_start (fun past m single shows => shows.step single) ?_
  have begun := r.begun_context.2
  refine ⟨by rw [begun]; rfl, by rw [begun]; rfl, ?_⟩
  rw [begun]
  show r.genesisTime.toNat = min _ (r.genesisTime.toNat + 1000 * 0)
  have := UInt64.toNat_lt_size r.genesisTime
  omega

/-- As long as heights are words, no moment of a run moves the context back. -/
theorem Run.notBefore (r : Run) (within : (openings r.moments).length < UInt64.size) (m : Moment)
    (hm : m ∈ r.moments) : m.before.context.NotBefore m.after.context := by
  obtain ⟨past, rest, split⟩ := List.append_of_mem hm
  obtain ⟨upTo, single⟩ := r.leads_upTo split
  have moved := m.context_of_opening single
  cases hopening : m.opening? with
  | none =>
    rw [hopening] at moved
    rw [moved]
    exact ⟨rfl, UInt64.le_refl _, UInt64.le_refl _⟩
  | some s =>
    rw [hopening] at moved
    obtain ⟨chain, height, time⟩ := moved
    refine ⟨chain, ?_, ?_⟩
    · -- Before the block there was room for one block more.
      have room : (openings past).length + 1 < UInt64.size := by
        have count : openings r.moments = openings past ++ s :: openings rest := by
          unfold openings
          rw [split, List.filterMap_append, List.filterMap_cons_some hopening]
        rw [count, List.length_append, List.length_cons] at within
        omega
      rw [height, (r.shows upTo).height, UInt64.le_iff_toNat_le, ← UInt64.ofNat_one,
        ← UInt64.ofNat_add, UInt64.toNat_ofNat_of_lt' (by omega), UInt64.toNat_ofNat_of_lt' room]
      omega
    · rw [time, UInt64.le_iff_toNat_le, toNat_addSeconds]
      have := UInt64.toNat_lt_size m.before.context.time
      omega

/-- The contexts of moments that follow each other, with the last one, follow each other. -/
theorem Leads.isChain {R : BlockContext → BlockContext → Prop} {h h' : Harness} {ms : List Moment}
    (all : Leads h ms h') (each : ∀ m ∈ ms, R m.before.context m.after.context) :
    ((ms.map fun m => m.before.context) ++ [h'.context]).IsChain R := by
  induction all with
  | nil => exact .singleton _
  | @cons m rest h' single follow ih =>
    have first := each m List.mem_cons_self
    have others := ih fun n hn => each n (List.mem_cons_of_mem _ hn)
    generalize m.after = next at first follow
    cases follow with
    | nil => exact .cons_cons first others
    | cons single follow => exact .cons_cons first others

/-- As long as heights are words, the context shows exactly the blocks that were opened, however
they ended: the height is their number, and the time is that of the beginning with all seconds to
them, which stops at the largest word. No other moment of the run changes the context, the test of
its progression finds nothing wrong where one does, and no context is before an earlier one. -/
theorem clock_of_run (r : Run) (within : (openings r.moments).length < UInt64.size) :
    r.now.context.height.toNat = (openings r.moments).length ∧
      r.now.context.time.toNat =
        min (UInt64.size - 1) (r.genesisTime.toNat + 1000 * elapsed r.moments) ∧
      r.now.context.chainId = r.config.chainId ∧
      (∀ m ∈ r.moments, m.opening? = none → m.after.context = m.before.context) ∧
      (∀ m ∈ r.moments, ∀ s, m.opening? = some s →
        checkProgression m.before.context m.after.context s = .ok ()) ∧
      ((r.moments.map fun m => m.before.context) ++ [r.now.context]).Pairwise
        BlockContext.NotBefore := by
  have shows := r.shows r.leads
  refine ⟨?_, shows.time, shows.chainId, fun m hm hnone => ?_, fun m hm s hsome => ?_, ?_⟩
  · rw [shows.height, UInt64.toNat_ofNat_of_lt' within]
  · have moved := m.context_of_opening (r.single hm)
    rwa [hnone] at moved
  · have moved := m.context_of_opening (r.single hm)
    rw [hsome] at moved
    obtain ⟨-, height, time⟩ := moved
    unfold checkProgression
    simp only [height, time, ne_eq, not_true_eq_false, if_false]
    rfl
  · exact List.isChain_iff_pairwise.1 (r.leads.isChain (r.notBefore within))

/-- Where an empty block is made first, its opening is the first one. -/
theorem Skips.openings {h h' : Harness} {p : Option ConsensusAddress} (skips : h.Skips p h')
    (rest : List Op) : Harness.openings (Harness.moments (.skipBlock :: rest) h) =
      h.config.blockTimeSeconds :: Harness.openings (Harness.moments rest h') := by
  obtain ⟨-, h₁, -, -, opening, all⟩ := skips.moments
  have closing : (Moment.mk .endBlock h₁).opening? = none := ite_self _
  unfold Harness.openings
  rw [all, List.filterMap_cons_some opening, List.filterMap_cons_none closing]

/-- Where a single operation comes first, its opening is the first one, if it opens a block. -/
theorem Op.Single.openings {op : Op} (single : op.Single) (rest : List Op) (h : Harness) :
    Harness.openings (Harness.moments (op :: rest) h) =
      (Moment.mk op h).opening?.toList ++ Harness.openings (Harness.moments rest (op.next h)) := by
  rw [single.moments_cons]
  unfold Harness.openings
  cases opening : (Moment.mk op h).opening? with
  | none => exact List.filterMap_cons_none opening
  | some s => exact List.filterMap_cons_some opening

/-- While a block is being built no other one is opened. -/
theorem Moment.beginBlock_of_building {h : Harness} {b : PendingBlock}
    (building : h.cycle = .building b) (epoch : Bool) (seconds : UInt64) :
    (Moment.mk (.beginBlock epoch seconds) h).opening? = none ∧
      Op.next (.beginBlock epoch seconds) h = h := by
  have busy : ¬h.Ready := fun ready => by cases ready.idle.symm.trans building
  obtain ⟨e, refused⟩ := beginBlock_of_not_ready busy epoch seconds
  obtain ⟨fails, same⟩ := Moment.of_error (.beginBlock epoch seconds) (bind_of_error refused _)
  unfold Moment.opening?
  rw [fails]
  exact ⟨rfl, same⟩

/-- After an empty block five seconds from the beginning another one is opened that begins an epoch,
a third one is refused, and the proposal of the second one is rejected. The height is two then, and
the time is six seconds later than in the beginning. -/
theorem exists_clock :
    ∃ r : Run, r.ops = [.skipBlock, .beginBlock true 9, .beginBlock false 3, .turn .rejectNext,
        .endBlock] ∧ (openings r.moments).length < UInt64.size ∧ openings r.moments = [5, 1] ∧
      r.now.cycle = .halted ∧ r.now.context.height.toNat = 2 ∧
      r.now.context.time.toNat = min (UInt64.size - 1) (r.genesisTime.toNat + 6000) := by
  obtain ⟨l, h, -, hinit, fresh, -⟩ := exists_paying_start
  let begun : Run := ⟨l, _, _, h, hinit, []⟩
  have calm : h.Calm := begun.calm fresh.idle fresh.failures fresh.verdict fresh.unarmed
  have unproposed : h.config.proposer = .none := by rw [fresh.config]; rfl
  let r : Run := { begun with ops := [.skipBlock, .beginBlock true 9, .beginBlock false 3,
    .turn .rejectNext, .endBlock] }
  obtain ⟨h₁, skips⟩ := calm.exists_skips (.none unproposed)
  -- The second block is opened for an epoch, and then the next one is refused.
  let c := nextContext h₁.context true 9 none
  let h₂ := h₁.opened c
  have opens : beginBlock true 9 h₁ = .ok () h₂ :=
    skips.calm.inStep.begins skips.calm.idle skips.calm.spared (skips.config ▸ unproposed) true 9
  obtain ⟨succeeds, after⟩ := Moment.of_ok (.beginBlock true 9) (bind_of_ok opens _)
  have second : Op.next (.beginBlock true 9) h₁ = h₂ := after
  have opening : (Moment.mk (.beginBlock true 9) h₁).opening? = some 1 :=
    Moment.opening?_eq_some_iff.2 ⟨succeeds, rfl⟩
  obtain ⟨unopened, third⟩ := Moment.beginBlock_of_building (h := h₂) rfl false 3
  have opened : openings r.moments = [5, 1] := by
    have seconds : h.config.blockTimeSeconds = 5 := by rw [fresh.config]; rfl
    have turning : (Moment.mk (.turn .rejectNext) h₂).opening? = none := ite_self _
    have closing (h' : Harness) : (Moment.mk .endBlock h').opening? = none := ite_self _
    show openings (Harness.moments [.skipBlock, .beginBlock true 9, .beginBlock false 3,
      .turn .rejectNext, .endBlock] h) = _
    rw [skips.openings, (Op.Single.beginBlock true 9).openings, opening, second,
      (Op.Single.beginBlock false 3).openings, unopened, third,
      (Op.Single.aside (.turn .rejectNext)).openings, turning, Op.Single.endBlock.openings, closing,
      seconds]
    rfl
  have now : r.now = Op.next .endBlock (onApp (Knob.turn .rejectNext) h₂) := by
    show afterAll [.skipBlock, .beginBlock true 9, .beginBlock false 3, .turn .rejectNext,
      .endBlock] h = _
    simp only [afterAll, List.foldl_cons, List.foldl_nil, skips.moments.1, second, third]
    rfl
  have halted : r.now.cycle = .halted := by
    rw [now]
    exact halted_of_rejectNext rfl rfl
  have within : (openings r.moments).length < UInt64.size := by
    rw [opened]
    decide
  obtain ⟨height, time, -⟩ := clock_of_run r within
  unfold elapsed at time
  rw [opened] at height time
  exact ⟨r, rfl, within, opened, halted, height, time⟩

end Harness

end TestChain
