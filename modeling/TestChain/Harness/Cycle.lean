import TestChain.Harness.Error

/-!
# The cycle of blocks

Between blocks the cycle is idle; while a block is built, transactions are queued in it; after a
block that failed the cycle is halted for good.
-/

namespace TestChain

/-- A block that is being built. -/
structure PendingBlock where
  /-- The queued transactions, in order. -/
  txs : List Tx
  /-- The height. -/
  height : UInt64
  /-- The time. -/
  time : UInt64

namespace PendingBlock

/-- A block without transactions. -/
def empty (height time : UInt64) : PendingBlock := ⟨[], height, time⟩

/-- The block with a transaction queued behind the others. -/
def push (b : PendingBlock) (tx : Tx) : PendingBlock :=
  { b with txs := b.txs ++ [tx] }

/-- The number of transactions. -/
def count (b : PendingBlock) : Nat :=
  b.txs.length

/-- Whether there are no transactions. -/
def isEmpty (b : PendingBlock) : Bool :=
  b.txs.isEmpty

/-- The size of all transactions. -/
def size (b : PendingBlock) : Nat :=
  totalSize b.txs

end PendingBlock

/-- The cycle of blocks. -/
inductive Cycle where
  /-- No block is open. -/
  | idle
  /-- A block is being built. -/
  | building (block : PendingBlock)
  /-- A block failed. -/
  | halted

namespace Cycle

/-- Where the cycle stands. -/
def state : Cycle → CycleState
  | .idle => .idle
  | .building _ => .accumulating
  | .halted => .halted

/-- The block that is being built. -/
def pending? : Cycle → Option PendingBlock
  | .building block => some block
  | _ => none

/-- Refuses an operation on a halted cycle. -/
def ensureReady : Cycle → Except HarnessError Unit
  | .halted => .error .halted
  | _ => .ok ()

/-- Refuses an operation unless the cycle is idle. -/
def ensureIdle (operation : BlockOperation) : Cycle → Except HarnessError Unit
  | .idle => .ok ()
  | .building _ => .error (.invalidPhase operation .accumulating)
  | .halted => .error .halted

/-- The block that is being built; an operation that needs one is refused without it. -/
def block (operation : BlockOperation) : Cycle → Except HarnessError PendingBlock
  | .idle => .error (.invalidPhase operation .idle)
  | .building block => .ok block
  | .halted => .error .halted

/-- The cycle with a transaction queued in its block. -/
def push (c : Cycle) (tx : Tx) : Except HarnessError Cycle := do
  let block ← c.block .execute
  return .building (block.push tx)

end Cycle

end TestChain
