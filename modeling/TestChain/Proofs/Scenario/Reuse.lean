import TestChain.Proofs.Scenario.Names

/-!
# Using an executor again

Doing a scenario begins with forgetting all but the harness, and the harness is replaced before
anything looks at it. So two executors that do the same scenario differ, while it is set up, in
nothing but the harness that an earlier scenario left (`Executor.declaring_beginning`); from the
first step on they do not differ at all (`Executor.follow_of_start`). Where the harness cannot be
set up the earlier one stays, but the report does not say anything about it. A report thus never
depends on the scenarios before (`Executor.reuse_leaks_nothing`).
-/

namespace TestChain

/-! ## What a fixed configuration leaves open -/

/-- The seed and the time at which the chain begins are chosen. -/
structure Scenario.IsFixed (s : Scenario) : Prop where
  /-- The seed is chosen. -/
  seed : s.config.seed.isSome = true
  /-- The time is chosen. -/
  time : s.config.genesisTime.isSome = true

/-- A harness whose seed and time are chosen begins alike in all surroundings. -/
theorem Scenario.IsFixed.start_eq {s : Scenario} (h : s.IsFixed) (around around' : Surroundings) :
    Harness.start around s.fundedConfig = Harness.start around' s.fundedConfig := by
  obtain ⟨seed, hseed⟩ := Option.isSome_iff_exists.1 h.seed
  obtain ⟨time, htime⟩ := Option.isSome_iff_exists.1 h.time
  have seed_eq : s.fundedConfig.seed = some seed := hseed
  have time_eq : s.fundedConfig.genesisTime = some time := htime
  unfold Harness.start Harness.init
  rw [seed_eq, time_eq]
  rfl

namespace Executor

variable {around around' : Surroundings} {s : Scenario} {h : Harness} {f : HarnessError}

/-! ## Setting up -/

/-- Naming the declared accounts does not look at the harness. -/
theorem declaring_withHarness (s : Scenario) (x : Option Harness) (e : Executor) :
    ({ e with harness := x }).declaring s = { e.declaring s with harness := x } := by
  unfold declaring
  generalize s.accounts = accounts
  induction accounts generalizing e with
  | nil => rfl
  | cons a rest ih => exact ih (e.declare s.config.bondDenom a)

/-- Executors that begin with a scenario agree in all but the harness. -/
theorem beginning_eq (s : Scenario) (e e' : Executor) :
    e.beginning s = { e'.beginning s with harness := e.harness } := by
  unfold beginning
  cases s.description with
  | some d => rfl
  | none => rfl

/-- Executors that have named the declared accounts agree in all but the harness. -/
theorem declaring_beginning (s : Scenario) (e e' : Executor) :
    (e.beginning s).declaring s = { (e'.beginning s).declaring s with harness := e.harness } := by
  rw [beginning_eq s e e', declaring_withHarness]

/-- Executors whose harness is set up agree. -/
theorem equipped_beginning (s : Scenario) (h : Harness) (e e' : Executor) :
    (e.beginning s).equipped s h = (e'.beginning s).equipped s h := by
  unfold equipped
  rw [declaring_beginning s e e']
  rfl

/-! ## Doing a scenario -/

/-- The part of a scenario that comes once the harness is set up. -/
def takeAll (s : Scenario) : Run Unit := do
  takeSteps 1 s.steps
  modify (say "=== Scenario completed successfully ===")

/-- Where the harness begins, the steps are taken. -/
theorem follow_of_start (hstart : Harness.start around s.fundedConfig = .ok h) (e : Executor) :
    follow around s e = takeAll s ((e.beginning s).equipped s h) := by
  rw [follow_eq around s (Nat.zero_le _), bind_eq, followTo_eq, setUp_eq, hstart]
  rfl

/-- Where the harness does not begin, no step is taken. -/
theorem follow_of_refusal (hstart : Harness.start around s.fundedConfig = .error f)
    (e : Executor) :
    follow around s e = .error (.setup (.harness f)) ((e.beginning s).declaring s) := by
  rw [follow_eq around s (Nat.zero_le _), bind_eq, followTo_eq, setUp_eq, hstart]

/-- A scenario that is done is reported with the executor that it leaves. -/
theorem run_of_ok {e e' : Executor} {u : Unit} (hfollow : follow around s e = .ok u e') :
    run around s e = (e'.success s.name, e') := by
  unfold run
  rw [hfollow]

/-- A scenario that fails is reported with the executor that it leaves and with the failure. -/
theorem run_of_error {e e' : Executor} {failure : Failure}
    (hfollow : follow around s e = .error failure e') :
    run around s e = ((e'.say ("=== Scenario failed: " ++ failure.message ++ " ===")).failed s.name
      failure.message, e'.say ("=== Scenario failed: " ++ failure.message ++ " ===")) := by
  unfold run
  rw [hfollow]

/-- A scenario whose seed and time are chosen is done alike in all surroundings. -/
theorem follow_surroundings (fixed : s.IsFixed) (around around' : Surroundings) (e : Executor) :
    follow around s e = follow around' s e := by
  have same := fixed.start_eq around around'
  cases hstart : Harness.start around s.fundedConfig with
  | ok h => rw [follow_of_start hstart, follow_of_start (same ▸ hstart)]
  | error f => rw [follow_of_refusal hstart, follow_of_refusal (same ▸ hstart)]

/-- So is its report. -/
theorem run_surroundings (fixed : s.IsFixed) (around around' : Surroundings) (e : Executor) :
    run around s e = run around' s e := by
  unfold run
  rw [follow_surroundings fixed around around']

/-- Where the harness begins, nothing depends on what an executor did before. -/
theorem run_of_start (hstart : Harness.start around s.fundedConfig = .ok h) (e e' : Executor) :
    run around s e = run around s e' := by
  unfold run
  rw [follow_of_start hstart, follow_of_start hstart, equipped_beginning s h e e']

/-- Where it does not, the harness stays and nothing else depends on it. -/
theorem run_of_refusal (hstart : Harness.start around s.fundedConfig = .error f)
    (e e' : Executor) :
    run around s e = ((run around s e').1, { (run around s e').2 with harness := e.harness }) := by
  rw [run_of_error (follow_of_refusal hstart e), run_of_error (follow_of_refusal hstart e'),
    declaring_beginning s e e']
  rfl

/-- The steps of a scenario keep what depends neither on the log, the harness, the names nor the
place. -/
theorem keeps_takeSteps {P : Executor → Prop} (hP : Apart P)
    (named : ∀ name a e, P e → P (e.nameAccount name a))
    (placed : ∀ number e, P e → P { e with position := number }) (number : Nat)
    (steps : List Step) : Ends P (takeSteps number steps) (fun _ => P) fun _ => P := by
  induction steps generalizing number with
  | nil => exact Ends.pure fun _ he => he
  | cons s rest ih =>
    intro e he
    rw [takeSteps_cons]
    have reached : P (e.reaching number s) := hP.say _ _ (placed number e he)
    cases hs : perform s (e.reaching number s) with
    | ok u e₁ => exact ih (number + 1) e₁ ((keeps_perform hP named s).of_ok reached hs)
    | error f e₁ => exact (keeps_perform hP named s).of_error reached hs

/-- A report does not touch the harness that a scenario leaves. -/
theorem harness_run (around : Surroundings) (s : Scenario) (e : Executor) :
    (run around s e).2.harness = (stateAfter (follow around s) e).harness := by
  unfold run stateAfter
  cases follow around s e with
  | ok u e' => rfl
  | error failure e' => rfl

/-- Once the harness was set up, there is one when the scenario is over. -/
theorem isSome_harness_of_start (hstart : Harness.start around s.fundedConfig = .ok h)
    (e : Executor) : (run around s e).2.harness.isSome = true := by
  have apart : Apart fun e => e.harness.isSome = true := ⟨fun _ _ he => he, fun _ _ _ => rfl⟩
  have steps := keeps_takeSteps apart (fun _ _ _ he => he) (fun _ _ he => he) 1 s.steps
  have all : Ends (fun e => e.harness.isSome = true) (takeAll s)
      (fun _ e => e.harness.isSome = true) fun _ e => e.harness.isSome = true :=
    steps.bind fun _ => Ends.change (apart.say _)
  have same : stateAfter (follow around s) e =
      stateAfter (takeAll s) ((e.beginning s).equipped s h) := by
    unfold stateAfter
    rw [follow_of_start hstart]
  rw [harness_run, same]
  exact all.stateAfter (s := (e.beginning s).equipped s h) rfl

/-! ## One scenario after another -/

/-- The executor after scenarios in order, each in surroundings of its own and whether it failed or
not. -/
def afterRuns (history : List (Surroundings × Scenario)) (e : Executor) : Executor :=
  history.foldl (fun e x => (run x.1 x.2 e).2) e

/-- One scenario leaves the executor that its run does. -/
theorem afterRuns_singleton (around : Surroundings) (s : Scenario) (e : Executor) :
    afterRuns [(around, s)] e = (run around s e).2 := rfl

/-- After any scenarios, a scenario whose seed and time are chosen is reported as if the executor
had not been used before. Where its harness begins, the executor that it leaves is the same one too,
and it has a harness. Where it does not begin, that executor is the same but for the harness, which
is the one that the scenarios before left. -/
theorem reuse_leaks_nothing (history : List (Surroundings × Scenario)) (fixed : s.IsFixed)
    (around around' : Surroundings) :
    (run around s (afterRuns history .fresh)).1 = (run around' s .fresh).1 ∧
      (∀ h, Harness.start around s.fundedConfig = .ok h →
        (run around s (afterRuns history .fresh)).2 = (run around' s .fresh).2 ∧
          (run around' s .fresh).2.harness.isSome = true) ∧
      ∀ f, Harness.start around s.fundedConfig = .error f →
        (run around s (afterRuns history .fresh)).2 =
          { (run around' s .fresh).2 with harness := (afterRuns history .fresh).harness } := by
  rw [run_surroundings fixed around' around]
  cases hstart : Harness.start around s.fundedConfig with
  | ok h =>
    rw [run_of_start hstart (afterRuns history .fresh) .fresh]
    exact ⟨rfl, fun _ _ => ⟨rfl, isSome_harness_of_start hstart _⟩, fun _ hf => (nomatch hf)⟩
  | error f =>
    rw [run_of_refusal hstart (afterRuns history .fresh) .fresh]
    exact ⟨rfl, fun _ hh => (nomatch hh), fun _ _ => rfl⟩

/-- A scenario of the fresh configuration whose seed and time are chosen, without accounts of its
own. -/
def settled (steps : List Step) : Scenario :=
  { bare steps with
    config := { HarnessConfig.fresh with genesisTime := some 1700000000000, seed := some 1 } }

/-- Its seed and time are chosen. -/
theorem isFixed_settled (steps : List Step) : (settled steps).IsFixed := ⟨rfl, rfl⟩

/-- Its harness begins. -/
theorem start_settled (around : Surroundings) (steps : List Step) :
    ∃ h, Harness.start around (settled steps).fundedConfig = .ok h := by
  have buildable : (settled steps).fundedConfig.genesis.Buildable
      (Harness.fundedAddress around (settled steps).fundedConfig) :=
    Harness.buildable_crediting [] (by decide) _
  obtain ⟨-, h, -, -, hstart⟩ := Harness.start_of_buildable rfl buildable
  exact ⟨h, hstart⟩

/-- An executor that has a harness from a scenario that failed does another one as if it had not
been used before. -/
theorem exists_reused :
    ∃ (history : List (Surroundings × Scenario)) (s : Scenario) (h : Harness),
      history.length = 1 ∧ (afterRuns history .fresh).harness.isSome = true ∧ s.IsFixed ∧
      Harness.start ⟨0, 0⟩ s.fundedConfig = .ok h ∧
      (run ⟨0, 0⟩ s (afterRuns history .fresh)).1 = (run ⟨1, 1⟩ s .fresh).1 ∧
      (run ⟨0, 0⟩ s (afterRuns history .fresh)).2 = (run ⟨1, 1⟩ s .fresh).2 := by
  obtain ⟨earlier, hearlier⟩ := start_settled ⟨7, 8⟩ [.assertHeight 7]
  obtain ⟨h, hstart⟩ := start_settled ⟨0, 0⟩ [.beginBlock false 5]
  have left := isSome_harness_of_start hearlier .fresh
  rw [← afterRuns_singleton] at left
  obtain ⟨report, executor, -⟩ := reuse_leaks_nothing [(⟨7, 8⟩, settled [.assertHeight 7])]
    (isFixed_settled [.beginBlock false 5]) ⟨0, 0⟩ ⟨1, 1⟩
  exact ⟨[(⟨7, 8⟩, settled [.assertHeight 7])], settled [.beginBlock false 5], h, rfl, left,
    isFixed_settled _, hstart, report, (executor h hstart).1⟩

end Executor

end TestChain
