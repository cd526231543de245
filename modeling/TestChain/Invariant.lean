import TestChain.Harness

/-!
# Invariants

Tests of what every run of a chain keeps: the supply is the sum of the balances, a block moves the
height by one and the time by what was asked for, and a block that was rejected changes nothing.
-/

namespace TestChain

/-- How an invariant is broken. -/
inductive Violation where
  /-- The supply of a denomination is not the sum of its balances. -/
  | supply (denom : String) (declared held : UInt64)
  /-- The height did not move by one. -/
  | height (before after : UInt64)
  /-- The time did not move as expected. -/
  | time (before after expected : UInt64)
  /-- The state changed. -/
  | changed (height time : UInt64 × UInt64) (appHash : Hash × Hash)
  /-- The state cannot be looked up. -/
  | query (error : AppError)
  deriving DecidableEq, Repr

/-- The wording of the violation. -/
def Violation.message : Violation → String
  | .supply denom declared held =>
    "Supply of " ++ denom ++ " is " ++ toString declared.toNat ++ " but balances sum to " ++
      toString held.toNat
  | .height before after =>
    "Height moved from " ++ toString before.toNat ++ " to " ++ toString after.toNat ++
      ", expected " ++ toString (before + 1).toNat
  | .time before after expected =>
    "Block time moved from " ++ toString before.toNat ++ " to " ++ toString after.toNat ++
      ", expected " ++ toString expected.toNat
  | .changed h t a =>
    "State changed: height " ++ toString h.1.toNat ++ " -> " ++ toString h.2.toNat ++
      ", time " ++ toString t.1.toNat ++ " -> " ++ toString t.2.toNat ++
      ", app hash " ++ a.1.text ++ " -> " ++ a.2.text
  | .query error => error.message

/-- Tests that two sets of coins have the same amount of some denominations. -/
def checkAmounts (supply balances : Coins) : List Coin → Except Violation Unit
  | [] => .ok ()
  | c :: rest =>
    let declared := supply.amountOf c.denom
    let held := balances.amountOf c.denom
    if declared = held then checkAmounts supply balances rest
    else .error (.supply c.denom declared held)

/-- Tests that the supply of every denomination is the sum of its balances. -/
def checkSupply (s : Store) : Except Violation Unit := do
  let supply ← (Ledger.supply s).mapError .query
  let balances ← (Ledger.totalBalances s).mapError .query
  checkAmounts supply balances (supply.toList ++ balances.toList)

/-- Tests that a context is that of the next block, some seconds later. -/
def checkProgression (before after : BlockContext) (seconds : UInt64) : Except Violation Unit := do
  if after.height ≠ before.height + 1 then throw (.height before.height after.height)
  let expected := addSeconds before.time seconds
  if after.time ≠ expected then throw (.time before.time after.time expected)

/-- Height, time and state at one moment. -/
structure Snapshot where
  /-- The height. -/
  height : UInt64
  /-- The time. -/
  time : UInt64
  /-- The hash of the last committed state. -/
  appHash : Hash
  deriving DecidableEq, Repr

/-- The snapshot of a harness. -/
def Snapshot.of (h : Harness) : Snapshot :=
  ⟨h.context.height, h.context.time, h.app.lastAppHash⟩

/-- Tests that nothing changed from a snapshot to another one. -/
def checkUnchanged (before after : Snapshot) : Except Violation Unit :=
  if before = after then .ok ()
  else .error (.changed (before.height, after.height) (before.time, after.time)
    (before.appHash, after.appHash))

end TestChain
