import TestChain.Json.Basic

/-!
# Application options

Options are named free values that an application is made with. `Options.debug` are the ones of a
debugging run, which traces and may lift the limit on the gas of simulated calls;
`Options.ofMembers` are any others.
-/

namespace TestChain

/-- Named free values. -/
structure Options where
  /-- The value of a name. -/
  get? : String → Option Json

namespace Options

/-- The option that asks for traces. -/
def trace : String := "trace"

/-- The option that limits the gas of simulated calls. -/
def simulationGasLimit : String := "wasm.simulation_gas_limit"

/-- The options of a debugging run. -/
def debug (gasLimit : Option UInt64) : Options where
  get? name :=
    if name = trace then some (.bool true)
    else if name = simulationGasLimit then gasLimit.map .nat
    else none

/-- The gas limit that stands for none. -/
def noGasLimit : UInt64 := 18446744073709551615

/-- The options of a debugging run, with or without a limit on the gas of simulated calls. -/
def debugging (unlimitedGas : Bool) : Options :=
  debug (if unlimitedGas then some noGasLimit else none)

/-- Options that are the members of an object. -/
def ofMembers (members : List (String × Json)) : Options :=
  ⟨fun name => members.lookup name⟩

/-- Whether an option is true. -/
def isTrue (o : Options) (name : String) : Bool :=
  match o.get? name with
  | some (.bool b) => b
  | _ => false

/-- The unsigned number of 64 bits that an option holds. -/
def number? (o : Options) (name : String) : Option UInt64 :=
  match o.get? name with
  | some (.num (.whole n _)) => if 0 ≤ n then some (UInt64.ofNat n.toNat) else none
  | _ => none

end Options

end TestChain
