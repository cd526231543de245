import TestChain.Proofs.Harness.Lockstep

/-!
# The moments of a run

Some operations are made of others: an empty block is opened and, if that succeeds, closed. The
`moments` of operations are the single ones among them, each with the harness that it was carried
out on, and they lead from the first harness to the last (`Run.leads`). So a count that is kept from
moment to moment can be compared with the harness at any of them (`Leads.induction`): a single
operation opens a block, queues a transaction, closes the block or leaves the cycle of blocks where
it stands (`Op.Single`).
-/

namespace TestChain.Harness

/-! ## Single operations -/

/-- An operation that leaves the cycle of blocks where it stands. -/
inductive Op.Aside : Op → Prop where
  /-- The accounts of the validator keys are credited. -/
  | fundValidators : Aside .fundValidators
  /-- An account is credited. -/
  | fundAccount (address : AccountAddress) (coins : Coins) : Aside (.fundAccount address coins)
  /-- A new account is made. -/
  | initAccount (coins : Coins) : Aside (.initAccount coins)
  /-- A number of new accounts is made. -/
  | initAccounts (coins : Coins) (n : Nat) : Aside (.initAccounts coins n)
  /-- A validator key is added. -/
  | addKey (key : ValidatorKey) : Aside (.addKey key)
  /-- Something is set in the application. -/
  | turn (k : Knob) : Aside (.turn k)

/-- An operation that is not made of others that open or close blocks. -/
inductive Op.Single : Op → Prop where
  /-- The next block is opened. -/
  | beginBlock (epoch : Bool) (seconds : UInt64) : Single (.beginBlock epoch seconds)
  /-- The next block is opened for a proposer. -/
  | beginBlockWith (operator : ValidatorAddress) (epoch : Bool) (seconds : UInt64) :
    Single (.beginBlockWith operator epoch seconds)
  /-- A transaction is queued. -/
  | execute (tx : Tx) : Single (.execute tx)
  /-- The open block is closed. -/
  | endBlock : Single .endBlock
  /-- The cycle of blocks stays where it stands. -/
  | aside {op : Op} (h : op.Aside) : Single op

/-- Two harnesses have the same context, the same cycle and the same configuration. -/
structure SamePlace (h h' : Harness) : Prop where
  /-- The contexts agree. -/
  context : h'.context = h.context
  /-- The cycles agree. -/
  cycle : h'.cycle = h.cycle
  /-- The configurations agree. -/
  config : h'.config = h.config

/-- Every harness is where it is. -/
theorem SamePlace.refl (h : Harness) : SamePlace h h :=
  ⟨rfl, rfl, rfl⟩

/-- What the operations aside are made of keeps a property. -/
structure KeepsAside (P : Harness → Prop) : Prop where
  /-- Crediting an account does. -/
  fund : ∀ address coins, Ends P (Harness.fund address coins) (fun _ => P) fun _ => P
  /-- Another state of the generator does. -/
  rng : ∀ h rng, P h → P { h with rng := rng }
  /-- Another validator key does. -/
  addKey : ∀ h key, P h → P (Harness.addKey key h)
  /-- What a test sets in the application does. -/
  turn : ∀ (k : Knob) h, P h → P (onApp k.turn h)

namespace KeepsAside

variable {P : Harness → Prop}

/-- Making an account keeps what its parts keep. -/
theorem initAccount (k : KeepsAside P) (coins : Coins) :
    Ends P (Harness.initAccount coins) (fun _ => P) fun _ => P := by
  refine (ReadOnly.ensureReady.ends P).bind fun _ h hP => ?_
  rw [get_bind_eq]
  have drawn := k.rng h (h.rng.draw PrivateKey.generate).2 hP
  exact ((k.fund _ coins).bind fun _ => Ends.pure (Q := fun _ => P) fun _ hP => hP) _ drawn

/-- Making accounts keeps what its parts keep. -/
theorem initAccounts (k : KeepsAside P) (coins : Coins) (n : Nat) :
    Ends P (Harness.initAccounts coins n) (fun _ => P) fun _ => P := by
  induction n with
  | zero => exact .pure fun _ hP => hP
  | succ n ih =>
    exact (k.initAccount coins).bind fun _ => ih.bind fun _ => .pure fun _ hP => hP

/-- An operation aside keeps what its parts keep, whether it succeeds or not. -/
theorem op (k : KeepsAside P) {op : Op} (aside : op.Aside) {h : Harness} (hP : P h) :
    P (op.next h) := by
  have answered {α : Type} {x : Call α} (hx : Ends P x (fun _ => P) fun _ => P) (f : α → Reply) :
      P (stateAfter (do return f (← x)) h) :=
    Ends.stateAfter (hx.bind fun _ => Ends.pure fun _ hP => hP) hP
  cases aside with
  | fundValidators =>
    refine answered (x := Harness.fundValidators) ?_ fun _ => .done
    exact (ReadOnly.ensureReady.ends P).bind fun _ =>
      (Ends.get (Q := fun _ => P) fun _ hP => hP).bind fun _ =>
        .forM fun key _ => k.fund key.accountAddress _
  | fundAccount address coins =>
    refine answered (x := Harness.fundAccount address coins) ?_ fun _ => .done
    exact (ReadOnly.ensureReady.ends P).bind fun _ => k.fund address coins
  | initAccount coins => exact answered (k.initAccount coins) fun key => .keys [key]
  | initAccounts coins n => exact answered (k.initAccounts coins n) .keys
  | addKey key => exact k.addKey h key hP
  | turn knob => exact k.turn knob h hP

end KeepsAside

/-- What the operations aside are made of leaves the cycle of blocks where it stands. -/
theorem samePlace_keepsAside (h₀ : Harness) : KeepsAside (SamePlace h₀) where
  fund address coins := by
    refine ends_fund ?failed ?credited
    case failed => exact fun h e a same _ => ⟨same.context, same.cycle, same.config⟩
    case credited => exact fun h a same _ => ⟨same.context, same.cycle, same.config⟩
  rng _ _ same := ⟨same.context, same.cycle, same.config⟩
  addKey _ _ same := ⟨same.context, same.cycle, same.config⟩
  turn _ _ same := ⟨same.context, same.cycle, same.config⟩

/-- An operation aside leaves the cycle of blocks where it stands, whether it succeeds or not. -/
theorem Op.Aside.samePlace {op : Op} (aside : op.Aside) (h : Harness) :
    SamePlace h (op.next h) :=
  (samePlace_keepsAside h).op aside (.refl h)

/-! ## Opening the next block -/

section

variable {α β : Type} {h h' : Harness} {e : HarnessError}

/-- What comes after a lookup succeeds on the harness that was looked at. -/
theorem ReadOnly.of_bind_ok {x : Call α} (hx : ReadOnly x) {f : α → Call β} {b : β}
    (hok : (x >>= f) h = .ok b h') : ∃ a, x h = .ok a h ∧ f a h = .ok b h' := by
  rcases hx.bind_eq f h with ⟨a, ha, same⟩ | ⟨e, -, refused⟩
  · rw [same] at hok
    exact ⟨a, ha, hok⟩
  · rw [refused] at hok
    cases hok

/-- Where a lookup or what comes after it fails, nothing has changed or it is the latter. -/
theorem ReadOnly.of_bind_error {x : Call α} (hx : ReadOnly x) {f : α → Call β}
    (herror : (x >>= f) h = .error e h') : h' = h ∨ ∃ a, f a h = .error e h' := by
  rcases hx.bind_eq f h with ⟨a, -, same⟩ | ⟨e, -, refused⟩
  · rw [same] at herror
    exact .inr ⟨a, herror⟩
  · rw [refused] at herror
    cases herror
    exact .inl rfl

variable {epoch : Bool} {seconds : UInt64} {u : Unit} {operator : ValidatorAddress}

/-- The next block is opened for the proposer that is chosen. -/
theorem beginBlock_ok (hok : beginBlock epoch seconds h = .ok u h') :
    ∃ p, selectProposer h = .ok p h ∧ openBlock epoch seconds p h = .ok u h' := by
  obtain ⟨_, -, hok⟩ := ReadOnly.ensureReady.of_bind_ok hok
  exact ReadOnly.selectProposer.of_bind_ok hok

/-- Where the next block is not opened nothing has changed, or it is the opening that failed. -/
theorem beginBlock_error (herror : beginBlock epoch seconds h = .error e h') :
    h' = h ∨ ∃ p, openBlock epoch seconds p h = .error e h' := by
  rcases ReadOnly.ensureReady.of_bind_error herror with same | ⟨_, herror⟩
  · exact .inl same
  · exact ReadOnly.selectProposer.of_bind_error herror

/-- The next block is opened for the validator of the operator. -/
theorem beginBlockWith_ok (hok : beginBlockWith operator epoch seconds h = .ok u h') :
    ∃ p, consensusAddressOf operator h = .ok p h ∧
      openBlock epoch seconds (some p) h = .ok u h' := by
  obtain ⟨_, -, hok⟩ := ReadOnly.ensureReady.of_bind_ok hok
  exact (ReadOnly.consensusAddressOf operator).of_bind_ok hok

/-- Where the next block is not opened for the validator of the operator, nothing has changed or it
is the opening that failed. -/
theorem beginBlockWith_error (herror : beginBlockWith operator epoch seconds h = .error e h') :
    h' = h ∨ ∃ p, openBlock epoch seconds p h = .error e h' := by
  rcases ReadOnly.ensureReady.of_bind_error herror with same | ⟨_, herror⟩
  · exact .inl same
  · rcases (ReadOnly.consensusAddressOf operator).of_bind_error herror with same | ⟨p, herror⟩
    · exact .inl same
    · exact .inr ⟨some p, herror⟩

/-- A transaction is queued exactly if a block is built. -/
theorem execute_ok_iff {tx : Tx} :
    execute tx h = .ok u h' ↔
      ∃ b, h.cycle = .building b ∧ h' = { h with cycle := .building (b.push tx) } := by
  unfold execute
  rw [get_bind_eq, bind_ok_iff]
  constructor
  · rintro ⟨c, h₁, hc, hset⟩
    obtain ⟨hpush, rfl⟩ := require_ok_iff.1 hc
    cases hset
    obtain ⟨b, hb, rest⟩ := except_bind_ok_iff.1 hpush
    cases rest
    refine ⟨b, ?_, rfl⟩
    cases hcycle : h₁.cycle with
    | building b' =>
      rw [hcycle] at hb
      cases hb
      rfl
    | idle => rw [hcycle] at hb; cases hb
    | halted => rw [hcycle] at hb; cases hb
  · rintro ⟨b, hb, rfl⟩
    exact ⟨.building (b.push tx), h, require_ok_iff.2 ⟨by rw [hb]; rfl, rfl⟩, rfl⟩

/-- A transaction that is not queued changes nothing. -/
theorem execute_error {tx : Tx} (herror : execute tx h = .error e h') : h' = h := by
  unfold execute at herror
  rw [get_bind_eq] at herror
  rcases bind_error_iff.1 herror with refused | ⟨c, h₁, -, hset⟩
  · exact (require_error_iff.1 refused).2
  · cases hset

end

/-! ## Moments -/

/-- An operation and the harness that it is carried out on. -/
structure Moment where
  /-- The operation. -/
  op : Op
  /-- The harness before it. -/
  before : Harness

/-- The harness after it. -/
def Moment.after (m : Moment) : Harness :=
  m.op.next m.before

/-- Whether the operation succeeds. -/
def Moment.succeeds (m : Moment) : Bool :=
  match m.op.call m.before with
  | .ok _ _ => true
  | .error _ _ => false

/-- An operation whose call succeeds is one, with the harness that the call leaves. -/
theorem Moment.of_ok (op : Op) {h h' : Harness} {reply : Reply} (hok : op.call h = .ok reply h') :
    (Moment.mk op h).succeeds = true ∧ (Moment.mk op h).after = h' := by
  unfold Moment.succeeds
  rw [hok]
  exact ⟨rfl, stateAfter_of_ok hok⟩

/-- An operation whose call fails is none, with the harness that the call leaves. -/
theorem Moment.of_error (op : Op) {h h' : Harness} {e : HarnessError}
    (herror : op.call h = .error e h') :
    (Moment.mk op h).succeeds = false ∧ (Moment.mk op h).after = h' := by
  unfold Moment.succeeds
  rw [herror]
  exact ⟨rfl, stateAfter_of_error herror⟩

/-- The call of an operation that succeeds gives a reply and the harness after it. -/
theorem Moment.call_of_succeeds {m : Moment} (succeeds : m.succeeds = true) :
    ∃ reply, m.op.call m.before = .ok reply m.after := by
  cases hr : m.op.call m.before with
  | ok reply h' => exact ⟨reply, by rw [(Moment.of_ok _ hr).2]⟩
  | error e h' =>
    rw [(Moment.of_error _ hr).1] at succeeds
    cases succeeds

/-- The call of an operation that does not succeed gives an error and the harness after it. -/
theorem Moment.call_of_fails {m : Moment} (fails : m.succeeds = false) :
    ∃ e, m.op.call m.before = .error e m.after := by
  cases hr : m.op.call m.before with
  | ok reply h' =>
    rw [(Moment.of_ok _ hr).1] at fails
    cases fails
  | error e h' => exact ⟨e, by rw [(Moment.of_error _ hr).2]⟩

/-- An idle harness queues no transaction. -/
theorem Moment.execute_of_idle {h : Harness} (idle : h.cycle = .idle) (tx : Tx) :
    (Moment.mk (.execute tx) h).succeeds = false ∧ (Moment.mk (.execute tx) h).after = h := by
  cases hr : Harness.execute tx h with
  | ok u h' =>
    obtain ⟨b, building, -⟩ := execute_ok_iff.1 hr
    cases idle.symm.trans building
  | error e h' =>
    obtain ⟨fails, after⟩ := Moment.of_error (.execute tx) (bind_of_error hr _)
    exact ⟨fails, after.trans (execute_error hr)⟩

/-- The seconds from a block to the next one: a single one where that begins an epoch. -/
def increment (epoch : Bool) (seconds : UInt64) : UInt64 :=
  if epoch then epochSeconds else seconds

/-- The seconds after which an operation opens the next block. -/
def Op.increment? : Op → Option UInt64
  | .beginBlock epoch seconds => some (increment epoch seconds)
  | .beginBlockWith _ epoch seconds => some (increment epoch seconds)
  | _ => none

/-- The seconds after which the next block is opened, if it is. -/
def Moment.opening? (m : Moment) : Option UInt64 :=
  if m.succeeds then m.op.increment? else none

/-- A block is opened by an operation that opens blocks and succeeds. -/
theorem Moment.opening?_eq_some_iff {m : Moment} {s : UInt64} :
    m.opening? = some s ↔ m.succeeds = true ∧ m.op.increment? = some s := by
  unfold Moment.opening?
  cases m.succeeds with
  | true => exact (and_iff_right rfl).symm
  | false => exact iff_of_false (fun h => (nomatch h)) fun h => (nomatch h.1)

/-- How the proposer of the block is found that an operation is to open. -/
def Op.proposer : Op → Call (Option ConsensusAddress)
  | .beginBlock _ _ => selectProposer
  | .beginBlockWith operator _ _ => some <$> consensusAddressOf operator
  | _ => pure none

/-- A block that is opened is opened for the proposer that was found. -/
theorem Moment.opened_for {m : Moment} {s : UInt64} (opening : m.opening? = some s) :
    ∃ epoch seconds, m.op.proposer m.before = .ok m.after.context.proposer m.before ∧
      openBlock epoch seconds m.after.context.proposer m.before = .ok () m.after := by
  obtain ⟨succeeds, increments⟩ := Moment.opening?_eq_some_iff.1 opening
  obtain ⟨reply, hcall⟩ := Moment.call_of_succeeds succeeds
  -- The proposer is the one in the context that opening the block leaves.
  have left {epoch : Bool} {seconds : UInt64} {p : Option ConsensusAddress}
      (opened : openBlock epoch seconds p m.before = .ok () m.after) :
      m.after.context.proposer = p := by
    obtain ⟨-, a, -, after⟩ := openBlock_ok_iff.1 opened
    rw [after]
    exact nextContext_proposer _ _ _ _
  cases hop : m.op with
  | beginBlock epoch seconds =>
    rw [hop] at hcall
    obtain ⟨_, h', hbegin, hreply⟩ := bind_ok_iff.1 hcall
    obtain rfl : h' = m.after := (EStateM.Result.ok.inj hreply).2
    obtain ⟨p, selected, opened⟩ := beginBlock_ok hbegin
    rw [left opened]
    exact ⟨epoch, seconds, selected, opened⟩
  | beginBlockWith operator epoch seconds =>
    rw [hop] at hcall
    obtain ⟨_, h', hbegin, hreply⟩ := bind_ok_iff.1 hcall
    obtain rfl : h' = m.after := (EStateM.Result.ok.inj hreply).2
    obtain ⟨p, found, opened⟩ := beginBlockWith_ok hbegin
    rw [left opened]
    refine ⟨epoch, seconds, ?_, opened⟩
    show (some <$> consensusAddressOf operator) m.before = _
    rw [map_eq_pure_bind, bind_of_ok found]
    rfl
  | _ =>
    rw [hop] at increments
    cases increments

/-- An operation aside opens no block. -/
theorem Op.Aside.increment?_eq {op : Op} (aside : op.Aside) : op.increment? = none := by
  cases aside <;> rfl

/-- What a single operation does to the cycle of blocks. -/
inductive Moment.Course (m : Moment) : Prop where
  /-- It opens the next block. -/
  | opened (epoch : Bool) (seconds : UInt64) (p : Option ConsensusAddress)
    (succeeds : m.succeeds = true) (op_eq : m.op.increment? = some (increment epoch seconds))
    (opened : openBlock epoch seconds p m.before = .ok () m.after)
  /-- It queues a transaction. -/
  | queued (tx : Tx) (b : PendingBlock) (op_eq : m.op = .execute tx) (succeeds : m.succeeds = true)
    (building : m.before.cycle = .building b)
    (after_eq : m.after = { m.before with cycle := .building (b.push tx) })
  /-- It closes the open block. -/
  | closed (f : FinalizeResponse) (op_eq : m.op = .endBlock) (succeeds : m.succeeds = true)
    (closed : endBlock m.before = .ok f m.after)
  /-- It is refused. -/
  | refused (fails : m.succeeds = false) (after_eq : m.after = m.before)
  /-- It halts the cycle. -/
  | broken (a : App) (fails : m.succeeds = false)
    (after_eq : m.after = { m.before with app := a, cycle := .halted })
  /-- It leaves the cycle where it stands. -/
  | aside (aside : m.op.Aside)

/-- Opening a block that fails is refused or halts the cycle. -/
theorem after_of_openBlock_error {epoch : Bool} {seconds : UInt64} {p : Option ConsensusAddress}
    {h h' : Harness} {e : HarnessError} (herror : openBlock epoch seconds p h = .error e h') :
    h' = h ∨ ∃ a, h' = { h with app := a, cycle := .halted } := by
  rcases openBlock_error_iff.1 herror with ⟨-, same⟩ | ⟨-, e', a, -, -, halted⟩
  · exact .inl same
  · exact .inr ⟨a, halted⟩

/-- An operation that fails and is refused or halts the cycle. -/
theorem Moment.Course.of_error {m : Moment} (fails : m.succeeds = false)
    (after : m.after = m.before ∨ ∃ a, m.after = { m.before with app := a, cycle := .halted }) :
    m.Course := by
  rcases after with same | ⟨a, halted⟩
  · exact .refused fails same
  · exact .broken a fails halted

/-- Every single operation takes one of these courses. -/
theorem Moment.course (m : Moment) (single : m.op.Single) : m.Course := by
  obtain ⟨op, h⟩ := m
  -- Of an operation that succeeds the call succeeds, and of one that fails the call fails.
  have ok {α : Type} {x : Call α} {f : α → Reply} (same : op.call = do return f (← x))
      (succeeds : (Moment.mk op h).succeeds = true) : ∃ a, x h = .ok a (Moment.mk op h).after := by
    obtain ⟨reply, hcall⟩ := Moment.call_of_succeeds succeeds
    rw [same] at hcall
    obtain ⟨a, h', hx, hreply⟩ := bind_ok_iff.1 hcall
    cases hreply
    exact ⟨a, hx⟩
  have error {α : Type} {x : Call α} {f : α → Reply} (same : op.call = do return f (← x))
      (fails : (Moment.mk op h).succeeds = false) :
      ∃ e, x h = .error e (Moment.mk op h).after := by
    obtain ⟨e, hcall⟩ := Moment.call_of_fails fails
    rw [same] at hcall
    rcases bind_error_iff.1 hcall with hx | ⟨a, h', -, hreply⟩
    · exact ⟨e, hx⟩
    · cases hreply
  cases single with
  | beginBlock epoch seconds =>
    cases hs : (Moment.mk (.beginBlock epoch seconds) h).succeeds with
    | true =>
      obtain ⟨_, hok⟩ := ok (f := fun _ => .done) rfl hs
      obtain ⟨p, -, opened⟩ := beginBlock_ok hok
      exact .opened epoch seconds p hs rfl opened
    | false =>
      obtain ⟨e, herror⟩ := error (f := fun _ => .done) rfl hs
      refine .of_error hs ?_
      rcases beginBlock_error herror with same | ⟨p, herror⟩
      · exact .inl same
      · exact after_of_openBlock_error herror
  | beginBlockWith operator epoch seconds =>
    cases hs : (Moment.mk (.beginBlockWith operator epoch seconds) h).succeeds with
    | true =>
      obtain ⟨_, hok⟩ := ok (f := fun _ => .done) rfl hs
      obtain ⟨p, -, opened⟩ := beginBlockWith_ok hok
      exact .opened epoch seconds (some p) hs rfl opened
    | false =>
      obtain ⟨e, herror⟩ := error (f := fun _ => .done) rfl hs
      refine .of_error hs ?_
      rcases beginBlockWith_error herror with same | ⟨p, herror⟩
      · exact .inl same
      · exact after_of_openBlock_error herror
  | execute tx =>
    cases hs : (Moment.mk (.execute tx) h).succeeds with
    | true =>
      obtain ⟨_, hok⟩ := ok (f := fun _ => .done) rfl hs
      obtain ⟨b, hb, after⟩ := execute_ok_iff.1 hok
      exact .queued tx b rfl hs hb after
    | false =>
      obtain ⟨e, herror⟩ := error (f := fun _ => .done) rfl hs
      exact .refused hs (execute_error herror)
  | endBlock =>
    cases hs : (Moment.mk .endBlock h).succeeds with
    | true =>
      obtain ⟨f, hok⟩ := ok (f := .block) rfl hs
      exact .closed f rfl hs hok
    | false =>
      obtain ⟨e, herror⟩ := error (f := .block) rfl hs
      refine .of_error hs ?_
      rcases endBlock_error herror with ⟨-, same⟩ | ⟨b, a, -, -, halted⟩
      · exact .inl same
      · exact .inr ⟨a, halted⟩
  | aside aside => exact .aside aside

/-! ## The moments of operations -/

/-- The moments of an empty block some seconds later: it is opened and, if that succeeds, closed. -/
def emptyBlock (seconds : UInt64) (h : Harness) : List Moment :=
  let opening : Moment := ⟨.beginBlock false seconds, h⟩
  opening :: if opening.succeeds then [⟨.endBlock, opening.after⟩] else []

/-- The moments of empty blocks at the usual distance, up to the first one that fails. -/
def emptyBlocks : Nat → Harness → List Moment
  | 0, _ => []
  | n + 1, h =>
    let first : Moment := ⟨.skipBlock, h⟩
    emptyBlock h.config.blockTimeSeconds h ++
      if first.succeeds then emptyBlocks n first.after else []

/-- The moments of an operation. -/
def Op.moments : Op → Harness → List Moment
  | .skipBlock, h => emptyBlock h.config.blockTimeSeconds h
  | .skipBlocks n, h => emptyBlocks n h
  | .increaseTime seconds, h => emptyBlock seconds h
  | op, h => [⟨op, h⟩]

/-- The moments of operations in order. -/
def moments : List Op → Harness → List Moment
  | [], _ => []
  | op :: rest, h => op.moments h ++ moments rest (op.next h)

/-- The moments of a run. -/
def Run.moments (r : Run) : List Moment :=
  Harness.moments r.ops r.begun

/-- Moments that follow each other, from one harness to another, each with a single operation. -/
inductive Leads : Harness → List Moment → Harness → Prop where
  /-- Without a moment nothing changes. -/
  | nil (h : Harness) : Leads h [] h
  /-- The others follow the first one. -/
  | cons {m : Moment} {rest : List Moment} {h' : Harness} (single : m.op.Single)
    (follow : Leads m.after rest h') : Leads m.before (m :: rest) h'

/-- Moments may be followed by others. -/
theorem Leads.append {h h' h'' : Harness} {ms ns : List Moment} (first : Leads h ms h')
    (second : Leads h' ns h'') : Leads h (ms ++ ns) h'' := by
  induction first with
  | nil => exact second
  | cons single _ ih => exact .cons single (ih second)

/-- The moments before one lead to its harness. -/
theorem Leads.upTo {h h' : Harness} {past rest : List Moment} {m : Moment}
    (all : Leads h (past ++ m :: rest) h') : Leads h past m.before ∧ m.op.Single := by
  induction past generalizing h with
  | nil =>
    cases all with
    | cons single _ => exact ⟨.nil _, single⟩
  | cons n past ih =>
    cases all with
    | cons single follow => exact ⟨.cons single (ih follow).1, (ih follow).2⟩

/-- What a single operation keeps, together with the moments so far, any moments keep. -/
theorem Leads.induction {P : List Moment → Harness → Prop}
    (step : ∀ past (m : Moment), m.op.Single → P past m.before → P (past ++ [m]) m.after)
    {h h' : Harness} {ms : List Moment} (all : Leads h ms h') {past : List Moment}
    (start : P past h) : P (past ++ ms) h' := by
  induction all generalizing past with
  | nil => rwa [List.append_nil]
  | @cons m rest _ single _ ih =>
    rw [← List.singleton_append, ← List.append_assoc]
    exact ih (step past m single start)

/-- What holds at first and is kept by single operations holds where moments lead. -/
theorem Leads.of_start {P : List Moment → Harness → Prop}
    (step : ∀ past (m : Moment), m.op.Single → P past m.before → P (past ++ [m]) m.after)
    {h h' : Harness} {ms : List Moment} (all : Leads h ms h') (start : P [] h) : P ms h' :=
  all.induction step start

/-- The moments of a single operation are it alone. -/
theorem Op.Single.leads {op : Op} (single : op.Single) (h : Harness) :
    Leads h [⟨op, h⟩] (op.next h) :=
  .cons (m := ⟨op, h⟩) single (.nil _)

/-- Where a single operation comes first, it is the first moment. -/
theorem Op.Single.moments_cons {op : Op} (single : op.Single) (rest : List Op) (h : Harness) :
    Harness.moments (op :: rest) h = ⟨op, h⟩ :: Harness.moments rest (op.next h) := by
  cases single with
  | aside aside => cases aside <;> rfl
  | _ => rfl

/-- An answer does not move the end of an operation. -/
theorem stateAfter_answered {α : Type} (x : Call α) (f : α → Reply) (h : Harness) :
    stateAfter (do return f (← x)) h = stateAfter x h := by
  unfold stateAfter
  cases hr : x h with
  | ok a h' => rw [bind_of_ok hr]; rfl
  | error e h' => rw [bind_of_error hr]

/-- An empty block at the usual distance ends where one after the usual seconds does. -/
theorem stateAfter_skipBlock (h : Harness) :
    stateAfter skipBlock h = stateAfter (increaseTime h.config.blockTimeSeconds) h := by
  unfold stateAfter skipBlock
  rw [get_bind_eq]

/-- An empty block that is opened ends where its closing does. -/
theorem stateAfter_increaseTime {h h₁ : Harness} {seconds : UInt64}
    (opens : Harness.beginBlock false seconds h = .ok () h₁) :
    stateAfter (increaseTime seconds) h = Op.endBlock.next h₁ :=
  (stateAfter_bind_of_ok opens).trans (stateAfter_answered _ .block h₁).symm

/-- An empty block at the usual distance that is opened ends where its closing does. -/
theorem next_skipBlock {h h₁ : Harness}
    (opens : Harness.beginBlock false h.config.blockTimeSeconds h = .ok () h₁) :
    Op.skipBlock.next h = Op.endBlock.next h₁ := by
  rw [Op.next, Op.call, stateAfter_answered Harness.skipBlock .block, stateAfter_skipBlock]
  exact stateAfter_increaseTime opens

/-- An empty block that is opened is opened and closed before anything else. -/
theorem moments_skipBlock {h h₁ : Harness}
    (opens : Harness.beginBlock false h.config.blockTimeSeconds h = .ok () h₁) (rest : List Op) :
    Harness.moments (.skipBlock :: rest) h =
      ⟨.beginBlock false h.config.blockTimeSeconds, h⟩ :: ⟨.endBlock, h₁⟩ ::
        Harness.moments rest (Op.endBlock.next h₁) := by
  obtain ⟨succeeds, after⟩ :=
    Moment.of_ok (.beginBlock false h.config.blockTimeSeconds) (bind_of_ok opens _)
  show emptyBlock h.config.blockTimeSeconds h ++ Harness.moments rest (Op.skipBlock.next h) = _
  unfold emptyBlock
  dsimp only
  rw [if_pos succeeds, after, next_skipBlock opens]
  rfl

/-- The moments of an empty block lead to where it ends. -/
theorem leads_emptyBlock (seconds : UInt64) (h : Harness) :
    Leads h (emptyBlock seconds h) (stateAfter (increaseTime seconds) h) := by
  unfold emptyBlock
  dsimp only
  cases hr : Harness.beginBlock false seconds h with
  | ok u h₁ =>
    obtain ⟨opened, after⟩ := Moment.of_ok (.beginBlock false seconds) (bind_of_ok hr _)
    rw [if_pos opened, after, stateAfter_increaseTime hr]
    have first : Leads h [⟨.beginBlock false seconds, h⟩] h₁ := by
      rw [← after]
      exact (Op.Single.beginBlock false seconds).leads h
    exact first.append (Op.Single.endBlock.leads h₁)
  | error e h₁ =>
    obtain ⟨refused, after⟩ := Moment.of_error (.beginBlock false seconds) (bind_of_error hr _)
    have same : stateAfter (increaseTime seconds) h = h₁ :=
      stateAfter_of_error (bind_of_error hr _)
    rw [refused, same, ← after]
    exact (Op.Single.beginBlock false seconds).leads h

/-- The moments of empty blocks lead to where the last of them ends. -/
theorem leads_emptyBlocks (n : Nat) (h : Harness) :
    Leads h (emptyBlocks n h) (stateAfter (skipBlocks n) h) := by
  induction n generalizing h with
  | zero => exact .nil h
  | succ n ih =>
    unfold emptyBlocks
    refine (leads_emptyBlock h.config.blockTimeSeconds h).append ?_
    rw [← stateAfter_skipBlock]
    -- The second block is begun only if the first one was made.
    cases hr : Harness.skipBlock h with
    | ok f h₁ =>
      obtain ⟨made, after⟩ := Moment.of_ok .skipBlock (bind_of_ok hr _)
      have others : stateAfter (skipBlocks (n + 1)) h = stateAfter (skipBlocks n) h₁ :=
        stateAfter_bind_of_ok hr
      rw [if_pos made, after, others, stateAfter_of_ok hr]
      exact ih h₁
    | error e h₁ =>
      obtain ⟨failed, -⟩ := Moment.of_error .skipBlock (bind_of_error hr _)
      have same : stateAfter (skipBlocks (n + 1)) h = h₁ :=
        stateAfter_of_error (bind_of_error hr _)
      rw [failed, same, stateAfter_of_error hr]
      exact .nil _

/-- The moments of an operation lead to where it ends. -/
theorem leads_op (op : Op) (h : Harness) : Leads h (op.moments h) (op.next h) := by
  cases op with
  | beginBlock epoch seconds => exact (Op.Single.beginBlock epoch seconds).leads h
  | beginBlockWith operator epoch seconds =>
    exact (Op.Single.beginBlockWith operator epoch seconds).leads h
  | execute tx => exact (Op.Single.execute tx).leads h
  | endBlock => exact Op.Single.endBlock.leads h
  | skipBlock =>
    rw [Op.next, Op.call, stateAfter_answered Harness.skipBlock .block, stateAfter_skipBlock]
    exact leads_emptyBlock h.config.blockTimeSeconds h
  | skipBlocks n =>
    rw [Op.next, Op.call, stateAfter_answered (Harness.skipBlocks n) fun _ => .done]
    exact leads_emptyBlocks n h
  | increaseTime seconds =>
    rw [Op.next, Op.call, stateAfter_answered (Harness.increaseTime seconds) .block]
    exact leads_emptyBlock seconds h
  | fundValidators => exact (Op.Single.aside .fundValidators).leads h
  | fundAccount address coins => exact (Op.Single.aside (.fundAccount address coins)).leads h
  | initAccount coins => exact (Op.Single.aside (.initAccount coins)).leads h
  | initAccounts coins n => exact (Op.Single.aside (.initAccounts coins n)).leads h
  | addKey key => exact (Op.Single.aside (.addKey key)).leads h
  | turn k => exact (Op.Single.aside (.turn k)).leads h

/-- The moments of operations lead to where the last of them ends. -/
theorem leads_moments (ops : List Op) (h : Harness) :
    Leads h (Harness.moments ops h) (afterAll ops h) := by
  induction ops generalizing h with
  | nil => exact .nil h
  | cons op rest ih => exact (leads_op op h).append (ih (op.next h))

/-- The moments of a run lead from its beginning to its end. -/
theorem Run.leads (r : Run) : Leads r.begun r.moments r.now :=
  leads_moments r.ops r.begun

/-- The moments before one of a run lead up to it. -/
theorem Run.leads_upTo (r : Run) {past rest : List Moment} {m : Moment}
    (split : r.moments = past ++ m :: rest) : Leads r.begun past m.before ∧ m.op.Single :=
  (split ▸ r.leads).upTo

/-- The moments of a run are those of single operations. -/
theorem Run.single (r : Run) {m : Moment} (hm : m ∈ r.moments) : m.op.Single := by
  obtain ⟨past, rest, split⟩ := List.append_of_mem hm
  exact (r.leads_upTo split).2

/-- The time at which a run begins. -/
def Run.genesisTime (r : Run) : UInt64 :=
  r.config.genesisTime.getD r.around.time

/-- A run begins idle in the context in which its chain begins. -/
theorem Run.begun_context (r : Run) :
    r.begun.cycle = .idle ∧ r.begun.context = .genesis r.config.chainId r.genesisTime := by
  obtain ⟨-, d, key, rng, v, app₁, app₂, registry, -, -, -, -, begun⟩ := init_ok_iff.1 r.begun_eq
  rw [begun]
  exact ⟨rfl, rfl⟩

end TestChain.Harness
