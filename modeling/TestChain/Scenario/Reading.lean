import TestChain.Scenario.Basic
import TestChain.Yaml.Tree

/-!
# Reading scenarios

A scenario is read from a YAML text, of which every JSON text is one, and checked before it is used.
-/

namespace TestChain

/-- Why a scenario cannot be read. -/
inductive ScenarioError where
  /-- The text does not have the shape of a scenario. -/
  | malformed
  /-- The scenario is wrong in itself. -/
  | invalid (fault : ScenarioFault)
  /-- The file does not hold a text. -/
  | notText
  /-- There is no such file. -/
  | noFile
  deriving DecidableEq, Repr

/-- The wording of the fault. -/
def ScenarioFault.message : ScenarioFault → String
  | .emptyName => "Invalid scenario: scenario name is empty"
  | .noSteps name => "Invalid scenario: scenario '" ++ name ++ "' has no steps"
  | .badConfig fault => "Invalid harness configuration: " ++ fault.message
  | .reservedName => "Invalid scenario: account name '" ++ Scenario.validatorName ++ "' is reserved"
  | .duplicateAccount name => "Invalid scenario: duplicate account '" ++ name ++ "'"
  | .unknownSender step name =>
    "Invalid scenario: step " ++ toString step ++ ": unknown sender account '" ++ name ++ "'"
  | .unknownAccount step name =>
    "Invalid scenario: step " ++ toString step ++ ": unknown account '" ++ name ++ "'"
  | .noBounds step =>
    "Invalid scenario: step " ++ toString step ++ ": assert_balance needs eq, gte or lte"

/-- The wording of the error. -/
def ScenarioError.message : ScenarioError → String
  | .malformed => "Invalid scenario: " ++ DecodeError.malformed.message
  | .invalid fault => fault.message
  | .notText => "IO error: stream did not contain valid UTF-8"
  | .noFile => "IO error: No such file or directory (os error 2)"

namespace Scenario

/-- Reads and checks a scenario. -/
def ofYaml (text : String) : Except ScenarioError Scenario := do
  match codec.ofYaml text with
  | .ok s =>
    s.check.mapError .invalid
    return s
  | .error _ => throw .malformed

/-- Reads a scenario from the content of a file, if there is one. -/
def ofFile (content : Option ByteArray) : Except ScenarioError Scenario :=
  match content with
  | none => .error .noFile
  | some bytes =>
    match String.fromUTF8? bytes with
    | some text => ofYaml text
    | none => .error .notText

end Scenario

end TestChain
