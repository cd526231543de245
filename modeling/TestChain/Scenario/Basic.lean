import TestChain.Harness.Config
import TestChain.Scenario.Step

/-!
# Scenarios

A scenario is a configuration of a harness, named accounts that hold bonded coins from the
beginning, and steps. An account is known by name once it is declared or was paid by a step; the
name `validator` is known always (`Scenario.firstNames`, `Step.namesAfter`). `Scenario.check`
refuses a scenario whose steps name an account that is not known.
-/

namespace TestChain

/-- A named account and what it holds at the beginning. -/
structure NamedAccount where
  /-- The name. -/
  name : String
  /-- The amount of the bonded denomination. -/
  balance : UInt64
  deriving DecidableEq, Repr

namespace NamedAccount

/-- Named accounts are written as records. -/
def codec : Codec NamedAccount :=
  .record <|
    (Fields.and (.required "name" .string) (.required "balance" amountCodec)).map
      (fun (n, b) => ⟨n, b⟩) (fun a => (a.name, a.balance))

/-- The address of a name. -/
def addressOf (name : String) : AccountAddress :=
  .ofModule ("scenario/" ++ name)

end NamedAccount

/-- A configuration, accounts and steps. -/
structure Scenario where
  /-- What it is called. -/
  name : String
  /-- What it is about. -/
  description : Option String
  /-- The configuration of the harness. -/
  config : HarnessConfig
  /-- The accounts that hold coins from the beginning. -/
  accounts : List NamedAccount
  /-- The steps. -/
  steps : List Step

/-- What is wrong with a scenario. -/
inductive ScenarioFault where
  /-- It has no name. -/
  | emptyName
  /-- It has no steps. -/
  | noSteps (name : String)
  /-- Its configuration cannot be used. -/
  | badConfig (fault : ConfigFault)
  /-- An account has the name of the validator. -/
  | reservedName
  /-- Two accounts have one name. -/
  | duplicateAccount (name : String)
  /-- A step lets an account pay that is not known. -/
  | unknownSender (step : Nat) (name : String)
  /-- A step asks for an account that is not known. -/
  | unknownAccount (step : Nat) (name : String)
  /-- A step asks for a balance and states nothing about it. -/
  | noBounds (step : Nat)
  deriving DecidableEq, Repr

namespace Step

/-- The names of accounts that are known after a step, given those that are known before it. -/
def namesAfter (known : List String) : Step → List String
  | .transfer t => if known.contains t.recipient then known else known ++ [t.recipient]
  | _ => known

/-- Refuses the step of a number when it names an account that is not known, or states nothing. -/
def check (number : Nat) (known : List String) : Step → Except ScenarioFault Unit
  | .transfer t =>
    if known.contains t.sender then .ok () else .error (.unknownSender number t.sender)
  | .assertBalance b =>
    if !known.contains b.account then .error (.unknownAccount number b.account)
    else if b.isEmpty then .error (.noBounds number)
    else .ok ()
  | _ => .ok ()

/-- Refuses the first step that is wrong, counting from a number. -/
def checkAll : Nat → List String → List Step → Except ScenarioFault Unit
  | _, _, [] => .ok ()
  | number, known, s :: rest => do
    s.check number known
    checkAll (number + 1) (s.namesAfter known) rest

end Step

namespace Scenario

/-- Scenarios are written as records. -/
def codec : Codec Scenario :=
  .record <|
    (Fields.and (.required "name" .string) <|
      .and (.defaulted "description" Codec.string.option none) <|
      .and (.defaulted "harness" HarnessConfig.codec .fresh) <|
      .and (.defaulted "accounts" NamedAccount.codec.list [])
        (.required "steps" Step.codec.list)).map
      (fun (n, d, c, a, s) => ⟨n, d, c, a, s⟩)
      (fun s => (s.name, s.description, s.config, s.accounts, s.steps))

/-- The name of the validator that the chain begins with. -/
def validatorName : String := "validator"

/-- The names with those of accounts behind them; a name that is known already is refused. -/
def declare : List String → List NamedAccount → Except ScenarioFault (List String)
  | known, [] => .ok known
  | known, a :: rest =>
    if a.name = validatorName then .error .reservedName
    else if known.contains a.name then .error (.duplicateAccount a.name)
    else declare (known ++ [a.name]) rest

/-- The names that are known before the first step. -/
def firstNames (s : Scenario) : Except ScenarioFault (List String) :=
  declare [validatorName] s.accounts

/-- Refuses a scenario that is wrong in itself. -/
def check (s : Scenario) : Except ScenarioFault Unit := do
  if (Text.trim s.name.toList).isEmpty then throw .emptyName
  if s.steps.isEmpty then throw (.noSteps s.name)
  s.config.check.mapError .badConfig
  let known ← s.firstNames
  Step.checkAll 1 known s.steps

/-- The configuration with the accounts' coins. -/
def fundedConfig (s : Scenario) : HarnessConfig :=
  let balances := s.accounts.map fun a =>
    ⟨NamedAccount.addressOf a.name, .single a.balance s.config.bondDenom⟩
  { s.config with
    genesis := { s.config.genesis with
      extraBalances := s.config.genesis.extraBalances ++ balances } }

end Scenario

end TestChain
