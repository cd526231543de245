import TestChain.Proofs.Scenario.Reuse

/-!
# Where a scenario fails

No step touches the place of an executor, so the place says which step was begun last, also when
that step has failed. Steps that fail do so at one of them, after those before it have succeeded,
and whatever comes behind it (`Executor.exists_failing_step`). A report therefore names the first
step that fails, counts those before it, and says nothing that depends on a later one
(`Executor.report_names_failure`).
-/

namespace TestChain

/-- The same scenario with other steps. -/
def Scenario.withSteps (s : Scenario) (steps : List Step) : Scenario :=
  { s with steps := steps }

namespace Executor

variable {around around' : Surroundings} {s : Scenario} {h : Harness} {f : HarnessError}
  {e e' : Executor} {number : Nat} {steps : List Step} {failure : Failure}

/-! ## Places -/

/-- A step does not touch the place. -/
theorem place_perform (s : Step) (n : Nat) :
    Ends (fun e => e.position = n) (perform s) (fun _ e => e.position = n)
      fun _ e => e.position = n :=
  keeps_perform ⟨fun _ _ he => he, fun _ _ he => he⟩ (fun _ _ _ he => he) s

/-- Steps that succeed end at the place of the last one. -/
theorem position_of_takeSteps {u : Unit} (he : e.position + 1 = number)
    (htake : takeSteps number steps e = .ok u e') :
    e'.position + 1 = number + steps.length := by
  induction steps generalizing number e with
  | nil =>
    cases htake
    exact he
  | cons s rest ih =>
    rw [takeSteps_cons] at htake
    cases hs : perform s (e.reaching number s) with
    | error f e₁ =>
      rw [hs] at htake
      cases htake
    | ok u e₁ =>
      rw [hs] at htake
      have place : e₁.position = number := (place_perform s number).of_ok rfl hs
      have last := ih (by rw [place]) htake
      rw [List.length_cons]
      omega

/-- Steps that fail do so at one of them, whose place is where they end: those before it succeed,
and those behind it do not matter. -/
theorem exists_failing_step (htake : takeSteps number steps e = .error failure e') :
    ∃ k < steps.length, (∃ e₁, takeSteps number (steps.take k) e = .ok () e₁) ∧
      e'.position = number + k ∧
      ∀ rest, takeSteps number (steps.take (k + 1) ++ rest) e = .error failure e' := by
  induction steps generalizing number e with
  | nil => cases htake
  | cons s later ih =>
    rw [takeSteps_cons] at htake
    cases hs : perform s (e.reaching number s) with
    | error cause e₁ =>
      rw [hs] at htake
      cases htake
      have place : e'.position = number := (place_perform s number).of_error rfl hs
      refine ⟨0, Nat.succ_pos _, ⟨e, rfl⟩, place, fun rest => ?_⟩
      rw [List.take_succ_cons, List.cons_append, takeSteps_cons, hs]
    | ok u e₁ =>
      rw [hs] at htake
      obtain ⟨k, hk, ⟨e₂, past⟩, place, fails⟩ := ih htake
      refine ⟨k + 1, Nat.succ_lt_succ hk, ⟨e₂, ?_⟩, ?_, fun rest => ?_⟩
      · rw [List.take_succ_cons, takeSteps_cons, hs]
        exact past
      · rw [place]
        omega
      · rw [List.take_succ_cons, List.cons_append, takeSteps_cons, hs]
        exact fails rest

/-- Before the first step an executor is at no place. -/
theorem position_declaring (s : Scenario) (e : Executor) :
    ((e.beginning s).declaring s).position = 0 := by
  have begun : (e.beginning s).position = 0 := by
    unfold beginning
    cases s.description with
    | some d => rfl
    | none => rfl
  unfold declaring
  generalize e.beginning s = first at begun
  generalize s.accounts = accounts
  induction accounts generalizing first with
  | nil => exact begun
  | cons a rest ih => exact ih (first.declare s.config.bondDenom a) begun

/-! ## Reports -/

/-- The report of a scenario by an executor that was not used before. -/
def firstReport (around : Surroundings) (s : Scenario) : Report :=
  (run around s .fresh).1

/-- The executor that was not used before, when it comes to the steps of a scenario. -/
def ready (s : Scenario) (h : Harness) : Executor :=
  (Executor.fresh.beginning s).equipped s h

/-- It is at no place. -/
theorem position_ready (s : Scenario) (h : Harness) : (ready s h).position = 0 :=
  position_declaring s .fresh

/-- Steps that fail make the scenario fail. -/
theorem follow_of_failure (hstart : Harness.start around s.fundedConfig = .ok h)
    (htake : takeSteps 1 s.steps (ready s h) = .error failure e') :
    follow around s .fresh = .error failure e' := by
  rw [follow_of_start hstart]
  exact bind_of_error htake _

/-- A scenario that fails is reported with the place where it does. -/
theorem firstReport_of_failure (hfollow : follow around s .fresh = .error failure e') :
    (firstReport around s).succeeded = false ∧
      (firstReport around s).failedStep =
        (if 0 < e'.position then some e'.position else none) ∧
      (firstReport around s).stepsTaken = e'.position - 1 := by
  unfold firstReport
  rw [run_of_error hfollow]
  exact ⟨rfl, rfl, rfl⟩

/-- A scenario that fails alike with other steps is reported alike. -/
theorem firstReport_withSteps (hfollow : follow around s .fresh = .error failure e')
    (hother : follow around (s.withSteps steps) .fresh = .error failure e') :
    firstReport around (s.withSteps steps) = firstReport around s := by
  unfold firstReport
  rw [run_of_error hfollow, run_of_error hother]
  rfl

/-- The report of a scenario whose harness does not begin: it fails before the first step, whatever
the steps are. -/
theorem firstReport_of_refusal (hstart : Harness.start around s.fundedConfig = .error f) :
    (firstReport around s).succeeded = false ∧ (firstReport around s).failedStep = none ∧
      (firstReport around s).stepsTaken = 0 ∧
      ∀ steps, firstReport around (s.withSteps steps) = firstReport around s := by
  have stops := follow_of_refusal hstart .fresh
  obtain ⟨failed, named, taken⟩ := firstReport_of_failure stops
  rw [position_declaring] at named taken
  exact ⟨failed, named, taken, fun steps => firstReport_withSteps stops
    (follow_of_refusal (s := s.withSteps steps) hstart .fresh)⟩

/-- The report of a scenario whose steps succeed. -/
theorem firstReport_of_ok {u : Unit} (hstart : Harness.start around s.fundedConfig = .ok h)
    (htake : takeSteps 1 s.steps (ready s h) = .ok u e') :
    (firstReport around s).succeeded = true ∧ (firstReport around s).failedStep = none ∧
      (firstReport around s).stepsTaken = s.steps.length := by
  have followed : follow around s .fresh =
      .ok ⟨⟩ (e'.say "=== Scenario completed successfully ===") := by
    rw [follow_of_start hstart]
    exact bind_of_ok htake _
  have place : (ready s h).position + 1 = 1 := by rw [position_ready]
  have last := position_of_takeSteps place htake
  unfold firstReport
  rw [run_of_ok followed]
  refine ⟨rfl, rfl, ?_⟩
  show e'.position = _
  omega

/-- The report of a scenario whose steps fail: it names the step at which they do and counts those
before it, which succeed, and it would be the same with other steps behind. -/
theorem firstReport_of_error (hstart : Harness.start around s.fundedConfig = .ok h)
    (htake : takeSteps 1 s.steps (ready s h) = .error failure e') :
    (firstReport around s).succeeded = false ∧
      ∃ k < s.steps.length, (firstReport around s).failedStep = some (k + 1) ∧
        (firstReport around s).stepsTaken = k ∧
        (firstReport around (s.withSteps (s.steps.take k))).succeeded = true ∧
        (firstReport around (s.withSteps (s.steps.take k))).stepsTaken = k ∧
        ∀ rest, firstReport around (s.withSteps (s.steps.take (k + 1) ++ rest)) =
          firstReport around s := by
  obtain ⟨k, hk, ⟨e₁, past⟩, place, fails⟩ := exists_failing_step htake
  have stops := follow_of_failure hstart htake
  obtain ⟨failed, named, taken⟩ := firstReport_of_failure stops
  rw [place, if_pos (Nat.add_pos_left Nat.one_pos k), Nat.add_comm] at named
  rw [place, Nat.add_sub_cancel_left] at taken
  obtain ⟨succeeded, -, all⟩ :=
    firstReport_of_ok (s := s.withSteps (s.steps.take k)) (u := ()) hstart past
  have length : (s.withSteps (s.steps.take k)).steps.length = k :=
    List.length_take_of_le (Nat.le_of_lt hk)
  rw [length] at all
  exact ⟨failed, k, hk, named, taken, succeeded, all, fun rest => firstReport_withSteps stops
    (follow_of_failure (s := s.withSteps (s.steps.take (k + 1) ++ rest)) hstart (fails rest))⟩

/-- Executing a scenario answers with its report if that says that it succeeded, and else with the
failure whose message is the error of the report. -/
theorem execute_eq (around : Surroundings) (s : Scenario) :
    (∀ r, (∃ e, execute around s .fresh = .ok r e) ↔
      (firstReport around s).succeeded = true ∧ firstReport around s = r) ∧
    ∀ failure, (∃ e, execute around s .fresh = .error failure e) →
      (firstReport around s).error = some failure.message := by
  unfold execute firstReport
  cases hfollow : follow around s .fresh with
  | ok u e' =>
    rw [run_of_ok hfollow, bind_of_ok hfollow, get_bind_eq, pure_eq]
    refine ⟨fun r => ⟨fun ⟨_, h⟩ => ?_, fun ⟨_, h⟩ => ⟨e', by rw [← h]⟩⟩, fun _ ⟨_, h⟩ => ?_⟩
    · cases h
      exact ⟨rfl, rfl⟩
    · cases h
  | error failure e' =>
    rw [run_of_error hfollow, bind_of_error hfollow]
    refine ⟨fun r => iff_of_false (fun ⟨_, h⟩ => (nomatch h)) fun h => (nomatch h.1),
      fun _ ⟨_, h⟩ => ?_⟩
    cases h
    rfl

/-- The report of a scenario whose seed and time are chosen names the first step that fails.
Executing the scenario answers with the same report exactly if that says that it succeeded; then no
step is named and all are counted. If a step is named, those before it are counted; with these alone
the scenario succeeds, and with other steps behind the named one the report is the same. If the
scenario failed and no step is named, none is counted, and with any other steps the report is the
same. -/
theorem report_names_failure (fixed : s.IsFixed) (around around' : Surroundings) :
    (∀ r, (∃ e, execute around' s .fresh = .ok r e) ↔
      (firstReport around s).succeeded = true ∧ firstReport around s = r) ∧
    (∀ failure, (∃ e, execute around' s .fresh = .error failure e) →
      (firstReport around s).error = some failure.message) ∧
    ((firstReport around s).succeeded = true →
      (firstReport around s).failedStep = none ∧
        (firstReport around s).stepsTaken = s.steps.length) ∧
    (∀ k, (firstReport around s).failedStep = some k →
      1 ≤ k ∧ k ≤ s.steps.length ∧ (firstReport around s).succeeded = false ∧
        (firstReport around s).stepsTaken = k - 1 ∧
        (firstReport around' (s.withSteps (s.steps.take (k - 1)))).succeeded = true ∧
        (firstReport around' (s.withSteps (s.steps.take (k - 1)))).stepsTaken = k - 1 ∧
        ∀ rest, firstReport around' (s.withSteps (s.steps.take k ++ rest)) =
          firstReport around s) ∧
    ((firstReport around s).succeeded = false → (firstReport around s).failedStep = none →
      (firstReport around s).stepsTaken = 0 ∧
        ∀ steps, firstReport around' (s.withSteps steps) = firstReport around s) := by
  have anywhere : ∀ t : Scenario, t.IsFixed → firstReport around' t = firstReport around t :=
    fun t ht => congrArg Prod.fst (run_surroundings ht around' around .fresh)
  have others : ∀ steps, firstReport around' (s.withSteps steps) =
      firstReport around (s.withSteps steps) := fun steps => anywhere _ ⟨fixed.seed, fixed.time⟩
  obtain ⟨executed, refused⟩ := execute_eq around' s
  rw [anywhere s fixed] at executed refused
  refine ⟨executed, refused, ?_⟩
  simp only [others]
  cases hstart : Harness.start around s.fundedConfig with
  | error f =>
    obtain ⟨failed, unnamed, taken, same⟩ := firstReport_of_refusal hstart
    refine ⟨fun h => ?_, fun k h => ?_, fun _ _ => ⟨taken, same⟩⟩
    · rw [failed] at h
      cases h
    · rw [unnamed] at h
      cases h
  | ok h =>
    cases htake : takeSteps 1 s.steps (ready s h) with
    | ok u e' =>
      obtain ⟨succeeded, unnamed, taken⟩ := firstReport_of_ok hstart htake
      refine ⟨fun _ => ⟨unnamed, taken⟩, fun k h => ?_, fun h => ?_⟩
      · rw [unnamed] at h
        cases h
      · rw [succeeded] at h
        cases h
    | error failure e' =>
      obtain ⟨failed, k, hk, named, taken, cut, cutTaken, same⟩ :=
        firstReport_of_error hstart htake
      refine ⟨fun h => ?_, fun k' h => ?_, fun _ h => ?_⟩
      · rw [failed] at h
        cases h
      · rw [named] at h
        cases h
        rw [Nat.add_sub_cancel]
        exact ⟨Nat.succ_pos k, hk, failed, taken, cut, cutTaken, same⟩
      · rw [named] at h
        cases h

/-- Three steps of which the second is a payment by somebody who is not known. -/
def ghostly : Scenario :=
  settled [.rejectNextProposal, .transfer ⟨"ghost", "validator", 1⟩, .fundValidators]

/-- Its report names the payment. -/
theorem failedStep_ghostly (around : Surroundings) :
    (firstReport around ghostly).failedStep = some 2 := by
  have begins : ∃ h, Harness.start around ghostly.fundedConfig = .ok h := start_settled around _
  obtain ⟨h, hstart⟩ := begins
  have refused : ghostly.check = .error (.unknownSender (1 + 1) "ghost") := rfl
  obtain ⟨e₁, hto⟩ := followTo_rejectNextProposal hstart rfl .fresh
  obtain ⟨step, e', -, hfails, place⟩ := fails_follow (.inl refused) hto
  obtain ⟨-, named, -⟩ := firstReport_of_failure hfails
  rw [named, place]
  rfl

/-- Without the payment the scenario succeeds, and nothing behind the payment is reported. -/
theorem exists_named_failure :
    ghostly.IsFixed ∧ (firstReport ⟨0, 0⟩ ghostly).failedStep = some 2 ∧
      (firstReport ⟨0, 0⟩ ghostly).stepsTaken = 1 ∧
      (firstReport ⟨1, 1⟩ (ghostly.withSteps (ghostly.steps.take 1))).succeeded = true ∧
      ∀ rest, firstReport ⟨1, 1⟩ (ghostly.withSteps (ghostly.steps.take 2 ++ rest)) =
        firstReport ⟨0, 0⟩ ghostly := by
  have fixed : ghostly.IsFixed := isFixed_settled _
  have named := failedStep_ghostly ⟨0, 0⟩
  obtain ⟨-, -, -, report, -⟩ := report_names_failure fixed ⟨0, 0⟩ ⟨1, 1⟩
  obtain ⟨-, -, -, taken, cut, -, same⟩ := report 2 named
  exact ⟨fixed, named, taken, cut, same⟩

end Executor

end TestChain
