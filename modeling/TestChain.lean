import TestChain.Invariant
import TestChain.Proofs.Harness.FailedCycle
import TestChain.Proofs.Harness.AppHash
import TestChain.Proofs.Harness.Refused
import TestChain.Scenario.Reading
import TestChain.Scenario.Report
import TestChain.Proofs.Bytes.Framed
import TestChain.Proofs.Store.Preimage
import TestChain.Proofs.Genesis.StateHash
import TestChain.Proofs.Genesis.States
import TestChain.Proofs.Genesis.Text
import TestChain.Proofs.Harness.Clock
import TestChain.Proofs.Harness.Delivery
import TestChain.Proofs.Harness.Split
import TestChain.Proofs.Scenario.RoundTrip
import TestChain.Proofs.Scenario.Names
import TestChain.Proofs.App.Atomic
import TestChain.Proofs.App.Queries
import TestChain.Proofs.Genesis.Built
import TestChain.Proofs.Genesis.Verdict
import TestChain.Proofs.App.Accounts
import TestChain.Proofs.App.Moving
import TestChain.Proofs.Genesis.FirstModule
import TestChain.Proofs.Harness.Accounts
import TestChain.Proofs.App.Credited
import TestChain.Proofs.Text.Numerals
import TestChain.Proofs.Harness.Constant
import TestChain.Proofs.Harness.Funding
import TestChain.Proofs.Harness.Rotation
import TestChain.Proofs.Harness.Liveness
import TestChain.Proofs.App.Proposals
import TestChain.Proofs.Text.Addresses
import TestChain.Proofs.Scenario.Reports
import TestChain.Proofs.Coins.Obtained
import TestChain.Proofs.App.Transactions
import TestChain.Proofs.Text.Decimals
import TestChain.Proofs.Decimal.Precision
import TestChain.Proofs.Coins.Difference
import TestChain.Proofs.Random.Replay
import TestChain.Proofs.App.Results
