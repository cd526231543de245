import TestChain.Scenario.Executor

/-!
# Reports

What became of a scenario. `Executor.run` reports a scenario that fails like one that does not;
`Executor.execute` reports only one that does not fail.
-/

namespace TestChain

/-- What became of a scenario. -/
structure Report where
  /-- The name of the scenario. -/
  name : String
  /-- The number of steps that were taken. -/
  stepsTaken : Nat
  /-- The number of the step that failed. -/
  failedStep : Option Nat
  /-- The failure in words. -/
  error : Option String
  /-- The lines of the log. -/
  log : List String
  deriving DecidableEq, Repr

namespace Report

/-- Whether the scenario did not fail. -/
def succeeded (r : Report) : Bool :=
  r.error.isNone

/-- The number of characters between the sides of the box. -/
def boxWidth : Nat := 60

/-- A line of the box. -/
def boxLine (left right : String) : String :=
  left ++ String.ofList (List.replicate boxWidth '═') ++ right

/-- A line in the box: a label and a value, with blanks up to the right side. -/
def boxed (label value : String) : String :=
  let line := "  " ++ label ++ ": " ++ value
  "║" ++ line ++ String.ofList (List.replicate (boxWidth - 1 - line.length) ' ') ++ " ║"

/-- The lines of the report. -/
def lines (r : Report) : List String :=
  ["", boxLine "╔" "╗", "║  Scenario Execution Report                                 ║",
    boxLine "╠" "╣", boxed "Name" r.name, boxed "Steps" (toString r.stepsTaken),
    boxed "Status" (if r.succeeded then "SUCCESS ✓" else "FAILED ✗")] ++
  (r.failedStep.map fun n => boxed "Failed step" (toString n)).toList ++
  [boxLine "╚" "╝", "", "Execution Log:", "═════════════"] ++ r.log

/-- The report as a text of lines. -/
def text (r : Report) : String :=
  String.join (r.lines.map (· ++ "\n"))

end Report

namespace Executor

/-- The report of a scenario that did not fail. -/
def success (name : String) (e : Executor) : Report where
  name := name
  stepsTaken := e.position
  failedStep := none
  error := none
  log := e.log

/-- The report of a scenario that failed. -/
def failed (name message : String) (e : Executor) : Report where
  name := name
  stepsTaken := e.position - 1
  failedStep := if 0 < e.position then some e.position else none
  error := some message
  log := e.log

/-- Does a scenario and reports what became of it. -/
def run (around : Surroundings) (s : Scenario) (e : Executor) : Report × Executor :=
  match follow around s e with
  | .ok _ e => (e.success s.name, e)
  | .error f e =>
    let e := e.say ("=== Scenario failed: " ++ f.message ++ " ===")
    (e.failed s.name f.message, e)

/-- Does a scenario and reports it, unless it fails. -/
def execute (around : Surroundings) (s : Scenario) : Run Report := do
  follow around s
  return (← get).success s.name

end Executor

end TestChain
