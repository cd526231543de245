import TestChain.Codec.Record

/-!
# Parameter sets

A module describes its parameters by a `ParamSet`: the module's name, and the name and kind of every
parameter.
-/

namespace TestChain

/-- The kind of a parameter's values. -/
inductive ParamKind where
  /-- A truth value. -/
  | bool
  /-- A whole number. -/
  | integer
  /-- A decimal. -/
  | decimal
  /-- A text. -/
  | string
  /-- An address. -/
  | address
  /-- A set of coins. -/
  | coins
  deriving DecidableEq, Repr

namespace ParamKind

/-- The name of a kind. -/
def name : ParamKind → String
  | .bool => "Bool"
  | .integer => "Integer"
  | .decimal => "Decimal"
  | .string => "String"
  | .address => "Address"
  | .coins => "Coins"

/-- The kind of a name. -/
def ofName? : String → Option ParamKind
  | "Bool" => some .bool
  | "Integer" => some .integer
  | "Decimal" => some .decimal
  | "String" => some .string
  | "Address" => some .address
  | "Coins" => some .coins
  | _ => none

/-- Kinds are written by name. -/
def codec : Codec ParamKind := .enumeration name ofName?

end ParamKind

/-- A parameter. -/
structure ParamKey where
  /-- Its name. -/
  name : String
  /-- The kind of its values. -/
  kind : ParamKind
  deriving DecidableEq, Repr

/-- Parameters are written as records. -/
def ParamKey.codec : Codec ParamKey :=
  .record <|
    (Fields.and (.required "name" .string) (.required "kind" ParamKind.codec)).map
      (fun (n, k) => ⟨n, k⟩) (fun k => (k.name, k.kind))

/-- The parameters of a module. -/
structure ParamSet where
  /-- The name of the module. -/
  moduleName : String
  /-- The parameters, in order. -/
  keys : List ParamKey
  deriving DecidableEq, Repr

namespace ParamSet

/-- The parameter of a name. -/
def key? (s : ParamSet) (name : String) : Option ParamKey :=
  s.keys.find? fun k => k.name = name

/-- Sets are written as records. -/
def codec : Codec ParamSet :=
  .record <|
    (Fields.and (.required "module" .string) (.required "keys" (.list ParamKey.codec))).map
      (fun (m, ks) => ⟨m, ks⟩) (fun s => (s.moduleName, s.keys))

/-- The parameters of the staking module. -/
def staking : ParamSet :=
  ⟨"staking",
    [⟨"unbonding_time_seconds", .integer⟩, ⟨"max_validators", .integer⟩, ⟨"max_entries", .integer⟩,
     ⟨"historical_entries", .integer⟩, ⟨"bond_denom", .string⟩, ⟨"min_commission_rate", .decimal⟩]⟩

/-- The parameters of the mint module. -/
def mint : ParamSet :=
  ⟨"mint",
    [⟨"mint_denom", .string⟩, ⟨"inflation_rate_change", .decimal⟩, ⟨"inflation_max", .decimal⟩,
     ⟨"inflation_min", .decimal⟩, ⟨"goal_bonded", .decimal⟩, ⟨"blocks_per_year", .integer⟩]⟩

/-- The parameters of the distribution module. -/
def distribution : ParamSet :=
  ⟨"distribution",
    [⟨"community_tax", .decimal⟩, ⟨"base_proposer_reward", .decimal⟩,
     ⟨"bonus_proposer_reward", .decimal⟩, ⟨"withdraw_addr_enabled", .bool⟩]⟩

/-- The parameters of the rewards module. -/
def rewards : ParamSet :=
  ⟨"rewards",
    [⟨"inflation_rewards_ratio", .decimal⟩, ⟨"tx_fee_rebate_ratio", .decimal⟩,
     ⟨"max_withdraw_records", .integer⟩]⟩

end ParamSet

end TestChain
