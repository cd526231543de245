import TestChain.App.Transfer
import TestChain.Harness
import TestChain.Scenario.Basic

/-!
# Executing scenarios

An `Executor` takes the steps of a scenario one after another and writes a log of them. It can be
used again: `Executor.follow` forgets the names, the log and the place of the scenario before; only
the harness is kept, until the next one is set up. `Executor.perform` takes one step, `StepError`
says what may go wrong with it and `Failure` where.
-/

namespace TestChain

/-- What goes wrong with a step, or before the first one. -/
inductive StepError where
  /-- There is no harness. -/
  | notSetUp
  /-- The harness refuses an operation. -/
  | harness (error : HarnessError)
  /-- No account has the name. -/
  | unknownAccount (name : String)
  /-- The height is another one. -/
  | wrongHeight (expected actual : UInt64)
  /-- No time is so many seconds away. -/
  | timeOutOfRange (seconds : UInt64)
  /-- The time is another one. -/
  | wrongTime (seconds elapsed : UInt64)
  /-- Something else than the expected rejection went wrong. -/
  | otherThanRejection (error : HarnessError)
  /-- A proposal that was to be rejected was committed. -/
  | committed
  /-- The block has another number of transactions. -/
  | wrongCount (expected : UInt64) (actual : Nat)
  /-- Another number of transactions failed. -/
  | wrongFailures (expected : UInt64) (actual : Nat)
  /-- The balance is another one. -/
  | wrongBalance (expected actual : UInt64)
  /-- The balance is less than its lower bound. -/
  | belowBound (actual bound : UInt64)
  /-- The balance is more than its upper bound. -/
  | aboveBound (actual bound : UInt64)
  deriving DecidableEq, Repr

namespace StepError

/-- The wordings of the error and of what caused it, the outermost first. -/
def texts : StepError → List String
  | .notSetUp => ["Harness not initialized"]
  | .harness e => e.message :: e.causes
  | .unknownAccount name => ["Account '" ++ name ++ "' not found"]
  | .wrongHeight expected actual =>
    ["Height assertion failed: expected " ++ shownWord expected ++ ", got " ++ shownWord actual]
  | .timeOutOfRange seconds => ["Time offset of " ++ shownWord seconds ++ "s is out of range"]
  | .wrongTime seconds elapsed =>
    ["Time assertion failed: expected +" ++ shownWord seconds ++ "s, got +" ++
      shownWord elapsed ++ "ms"]
  | .otherThanRejection e => "Expected a proposal rejection" :: e.message :: e.causes
  | .committed => ["Expected the proposal to be rejected, but it committed"]
  | .wrongCount expected actual =>
    ["Expected " ++ shownWord expected ++ " tx result(s), got " ++ toString actual]
  | .wrongFailures expected actual =>
    ["Expected " ++ shownWord expected ++ " failed tx(s), got " ++ toString actual]
  | .wrongBalance expected actual =>
    ["Balance assertion failed: expected " ++ shownWord expected ++ ", got " ++ shownWord actual]
  | .belowBound actual bound => ["Balance " ++ shownWord actual ++ " < " ++ shownWord bound]
  | .aboveBound actual bound => ["Balance " ++ shownWord actual ++ " > " ++ shownWord bound]

/-- The error of the harness behind the error. -/
def harnessError? : StepError → Option HarnessError
  | .harness e => some e
  | .otherThanRejection e => some e
  | _ => none

end StepError

/-- Where a scenario failed, and why. -/
inductive Failure where
  /-- Before the first step. -/
  | setup (cause : StepError)
  /-- At the step of a number. -/
  | step (number : Nat) (taken : Step) (cause : StepError)
  deriving DecidableEq, Repr

namespace Failure

/-- What went wrong. -/
def cause : Failure → StepError
  | .setup cause => cause
  | .step _ _ cause => cause

/-- The place of the failure in words. -/
def place : Failure → String
  | .setup _ => "Failed to set up harness"
  | .step number taken _ => "Failed at step " ++ toString number ++ " (" ++ taken.shown ++ ")"

/-- The place of the failure and all that caused it. -/
def message (f : Failure) : String :=
  String.intercalate ": " (f.place :: f.cause.texts)

end Failure

/-- Something that takes the steps of scenarios. -/
structure Executor where
  /-- The harness of the last scenario that was set up. -/
  harness : Option Harness
  /-- The accounts that can be named. -/
  accounts : Members AccountAddress
  /-- The lines of the log. -/
  log : List String
  /-- The number of the step that was begun last, counted from one. -/
  position : Nat

namespace Executor

/-- An executor that was not used before. -/
def fresh : Executor := ⟨none, [], [], 0⟩

/-- A part of a step. -/
abbrev Call (α : Type) := EStateM StepError Executor α

/-- A part of a scenario. -/
abbrev Run (α : Type) := EStateM Failure Executor α

/-- Forgets what the last scenario left, but for its harness. -/
def clear (e : Executor) : Executor :=
  { e with accounts := [], log := [], position := 0 }

/-- Writes a line behind the log. -/
def say (line : String) (e : Executor) : Executor :=
  { e with log := e.log ++ [line] }

/-- Gives an address a name. -/
def nameAccount (name : String) (a : AccountAddress) (e : Executor) : Executor :=
  { e with accounts := Members.put name a e.accounts }

/-- Writes a line behind the log. -/
def note (line : String) : Call Unit :=
  modify (say line)

/-- The harness. -/
def theHarness : Call Harness := do
  match (← get).harness with
  | some h => return h
  | none => throw .notSetUp

/-- Calls the harness; whether it refuses is part of the result. -/
def attempt {α : Type} (x : Harness.Call α) : Call (Except HarnessError α) := do
  match x (← theHarness) with
  | .ok a h =>
    modify fun e => { e with harness := some h }
    return .ok a
  | .error f h =>
    modify fun e => { e with harness := some h }
    return .error f

/-- Calls the harness. -/
def onHarness {α : Type} (x : Harness.Call α) : Call α := do
  match ← attempt x with
  | .ok a => return a
  | .error f => throw (.harness f)

/-- The address of a name. -/
def addressOf (name : String) : Call AccountAddress := do
  match (← get).accounts.lookup name with
  | some a => return a
  | none => throw (.unknownAccount name)

/-- The address of a name, which is given its own one if it has none. -/
def addressOrNew (name : String) : Call AccountAddress := do
  match (← get).accounts.lookup name with
  | some a => return a
  | none =>
    let a := NamedAccount.addressOf name
    modify (nameAccount name a)
    return a

/-! ## Steps -/

/-- Queues a transfer between named accounts. -/
def transfer (t : NamedTransfer) : Call Unit := do
  let sender ← addressOf t.sender
  let recipient ← addressOrNew t.recipient
  let denom := (← theHarness).config.bondDenom
  onHarness (Harness.execute (Transfer.tx ⟨sender, recipient, .single t.amount denom⟩))
  note ("  Transfer queued: " ++ t.sender ++ " -> " ++ t.recipient ++
    " (" ++ shownWord t.amount ++ denom ++ ")")

/-- Closes a block whose proposal is to be rejected. -/
def endRejected : Call Unit := do
  match ← attempt Harness.endBlock with
  | .ok _ => throw .committed
  | .error e =>
    if e.errorClass = .rejection then note ("  ✓ Proposal rejected: " ++ e.message)
    else throw (.otherThanRejection e)

/-- Closes a block that is to be committed. -/
def endCommitted (expect : Expectation) : Call Unit := do
  let response ← onHarness Harness.endBlock
  let count := response.results.length
  let failed := response.results.countP fun r => !r.isOk
  if let some n := expect.txs then
    if n.toNat ≠ count then throw (.wrongCount n count)
  if let some n := expect.failed then
    if n.toNat ≠ failed then throw (.wrongFailures n failed)
  let height := (← theHarness).context.height
  note ("  ✓ Block " ++ shownWord height ++ " committed: " ++ toString count ++ " tx(s), " ++
    toString failed ++ " failed, app_hash=" ++ response.appHash.text)

/-- Compares a balance with its bounds. -/
def compareBalance (actual : UInt64) (b : BalanceBounds) : Call Unit := do
  if let some n := b.equal then
    if actual ≠ n then throw (.wrongBalance n actual)
    note ("  ✓ Balance equals " ++ shownWord n)
  if let some n := b.atLeast then
    if actual < n then throw (.belowBound actual n)
    note ("  ✓ Balance >= " ++ shownWord n)
  if let some n := b.atMost then
    if n < actual then throw (.aboveBound actual n)
    note ("  ✓ Balance <= " ++ shownWord n)

/-- Compares the balance of a named account with its bounds. -/
def assertBalance (b : BalanceBounds) : Call Unit := do
  let address ← addressOf b.account
  let denom := b.denom.getD (← theHarness).config.bondDenom
  let actual ← onHarness (Harness.balance address denom)
  note ("Assert balance for '" ++ b.account ++ "': actual=" ++ shownWord actual ++ denom)
  compareBalance actual b

/-- Compares the time since the chain began with a number of seconds. -/
def assertTimeOffset (seconds : UInt64) : Call Unit := do
  let h ← theHarness
  let elapsed := h.context.time.toNat - h.genesisTime.toNat
  if UInt64.size ≤ seconds.toNat * 1000 then throw (.timeOutOfRange seconds)
  if elapsed ≠ seconds.toNat * 1000 then throw (.wrongTime seconds (UInt64.ofNat elapsed))
  note ("  ✓ Block time is genesis + " ++ shownWord seconds ++ "s")

/-- Takes a step. -/
def perform : Step → Call Unit
  | .beginBlock epoch seconds => do
    onHarness (Harness.beginBlock epoch seconds)
    let c := (← theHarness).context
    note ("  Opened block " ++ shownWord c.height ++ " at " ++ shownWord c.time)
  | .execute tx => do
    onHarness (Harness.execute tx.toUTF8)
    note ("  Queued " ++ toString tx.utf8ByteSize ++ " byte(s)")
  | .transfer t => transfer t
  | .endBlock expect =>
    let expect := expect.getD .none
    if expect.rejected then endRejected else endCommitted expect
  | .skipBlocks count => do
    onHarness (Harness.skipBlocks count.toNat)
    note ("  Skipped " ++ shownWord count ++ " block(s)")
  | .increaseTime seconds => do
    let _ ← onHarness (Harness.increaseTime seconds)
    note ("  Time increased by " ++ shownWord seconds ++ "s")
  | .fundValidators => do
    onHarness Harness.fundValidators
    note "  Validators funded"
  | .rejectNextProposal => do
    onHarness (modify (Harness.onApp App.rejectNextProposal))
    note "  Next proposal will be rejected"
  | .assertHeight height => do
    let actual := (← theHarness).context.height
    if actual ≠ height then throw (.wrongHeight height actual)
    note ("  ✓ Height equals " ++ shownWord height)
  | .assertTimeOffset seconds => assertTimeOffset seconds
  | .assertBalance b => assertBalance b

/-! ## Scenarios -/

/-- Names a declared account. -/
def declare (denom : String) (a : NamedAccount) (e : Executor) : Executor :=
  let address := NamedAccount.addressOf a.name
  (e.nameAccount a.name address).say ("  Account '" ++ a.name ++ "': balance=" ++
    shownWord a.balance ++ denom ++ " (" ++ address.text ++ ")")

/-- Sets the harness of a scenario up. -/
def setUp (around : Surroundings) (s : Scenario) : Call Unit := do
  modify fun e => s.accounts.foldl (fun e a => e.declare s.config.bondDenom a) e
  match Harness.start around s.fundedConfig with
  | .error e => throw (.harness e)
  | .ok h =>
    modify (nameAccount Scenario.validatorName h.genesisKey.accountAddress)
    note ("Genesis complete: chain " ++ h.context.chainId ++ ", " ++ toString s.accounts.length ++
      " named account(s)")
    modify fun e => { e with harness := some h }

/-- Does a part of a scenario; an error in it makes the scenario fail. -/
def failingAs {α : Type} (place : StepError → Failure) (x : Call α) : Run α := fun e =>
  match x e with
  | .ok a e => .ok a e
  | .error f e => .error (place f) e

/-- Takes steps, counting from a number. -/
def takeSteps : Nat → List Step → Run Unit
  | _, [] => pure ()
  | number, s :: rest => do
    modify fun e => { e with position := number }.say
      ("--- Step " ++ toString number ++ ": " ++ s.shown ++ " ---")
    failingAs (.step number s) (perform s)
    takeSteps (number + 1) rest

/-- Does a scenario from its beginning. -/
def follow (around : Surroundings) (s : Scenario) : Run Unit := do
  modify fun e => e.clear.say ("Starting scenario: " ++ s.name)
  if let some d := s.description then modify (say ("Description: " ++ d))
  failingAs .setup (setUp around s)
  takeSteps 1 s.steps
  modify (say "=== Scenario completed successfully ===")

end Executor

end TestChain
