import TestChain.Proofs.Outcome
import TestChain.Scenario.Basic

/-!
# The check of names

The check of a scenario walks over the steps with a list of names. It goes on with the step that it
reaches (`Scenario.check_eq_of_le`), a step that it lets pass asks for no name that is not in the
list (`Step.known_of_check`), and where it refuses a step for a name that is not known, it has
reached that step and the step asks for the name (`Scenario.reached_of_refused`).
-/

namespace TestChain

namespace Step

/-- The name for which a step asks: that of an account that pays, or that of one whose balance is
compared. -/
def asksFor : Step → Option String
  | .transfer t => some t.sender
  | .assertBalance b => some b.account
  | _ => none

/-- The names that are known after steps, counted from a number, none of which is refused. -/
def namesThrough : Nat → List String → List Step → Except ScenarioFault (List String)
  | _, known, [] => .ok known
  | number, known, s :: rest => do
    s.check number known
    namesThrough (number + 1) (s.namesAfter known) rest

/-- The check of steps is that of the first ones and then, with the names that are known after them,
that of the others. -/
theorem checkAll_append (number : Nat) (known : List String) (past rest : List Step) :
    checkAll number known (past ++ rest) =
      (do checkAll (number + past.length) (← namesThrough number known past) rest) := by
  induction past generalizing number known with
  | nil => rfl
  | cons s past ih =>
    show (do s.check number known; checkAll (number + 1) (s.namesAfter known) (past ++ rest)) = _
    unfold namesThrough
    cases s.check number known with
    | error f => rfl
    | ok u =>
      show checkAll (number + 1) (s.namesAfter known) (past ++ rest) = _
      rw [ih, List.length_cons, Nat.add_assoc, Nat.add_comm 1]
      rfl

/-- A step that is not refused asks for no name that is not known. -/
theorem known_of_check {number : Nat} {known : List String} {s : Step} {name : String}
    (h : s.check number known = .ok ()) (hname : s.asksFor = some name) : name ∈ known := by
  unfold check at h
  split at h
  · cases hname
    split at h
    · exact List.contains_iff_mem.1 ‹_›
    · cases h
  · cases hname
    split at h
    · cases h
    · rename_i hknown
      exact List.contains_iff_mem.1 (by simpa using hknown)
  · rename_i other₁ other₂
    cases s with
    | transfer t => exact absurd rfl (other₁ t)
    | assertBalance b => exact absurd rfl (other₂ b)
    | _ => cases hname

/-- A step is refused for an account that is not known only under its own number and for the name
for which it asks. -/
theorem asksFor_of_check {number k : Nat} {known : List String} {s : Step} {name : String}
    (h : s.check number known = .error (.unknownSender k name) ∨
      s.check number known = .error (.unknownAccount k name)) :
    k = number ∧ s.asksFor = some name ∧ name ∉ known := by
  unfold check at h
  split at h
  · split at h
    · rcases h with h | h <;> cases h
    · rename_i hknown
      rcases h with h | h
      · cases h
        exact ⟨rfl, rfl, fun hmem => hknown (List.contains_iff_mem.2 hmem)⟩
      · cases h
  · split at h
    · rename_i hknown
      rcases h with h | h
      · cases h
      · cases h
        exact ⟨rfl, rfl, fun hmem => by
          rw [List.contains_iff_mem.2 hmem] at hknown
          cases hknown⟩
    · split at h <;> rcases h with h | h <;> cases h
  · rcases h with h | h <;> cases h

/-- What the steps that are not refused leave known, when the check refuses a later one for an
account that is not known: its number, and the name for which it asks. -/
theorem refused_step {number k : Nat} {known : List String} {steps : List Step} {name : String}
    (h : checkAll number known steps = .error (.unknownSender k name) ∨
      checkAll number known steps = .error (.unknownAccount k name)) :
    ∃ past s rest known', steps = past ++ s :: rest ∧ k = number + past.length ∧
      namesThrough number known past = .ok known' ∧ s.asksFor = some name ∧ name ∉ known' := by
  induction steps generalizing number known with
  | nil => rcases h with h | h <;> cases h
  | cons s steps ih =>
    have unfolded : checkAll number known (s :: steps) =
      (do s.check number known; checkAll (number + 1) (s.namesAfter known) steps) := rfl
    rw [unfolded] at h
    cases hs : s.check number known with
    | error f =>
      rw [hs] at h
      have refused : s.check number known = .error (.unknownSender k name) ∨
          s.check number known = .error (.unknownAccount k name) := by
        rw [hs]
        exact h.imp (fun h => by cases h; rfl) (fun h => by cases h; rfl)
      obtain ⟨rfl, hname, hunknown⟩ := asksFor_of_check refused
      exact ⟨[], s, steps, known, rfl, rfl, rfl, hname, hunknown⟩
    | ok u =>
      rw [hs] at h
      obtain ⟨past, t, rest, known', rfl, rfl, hpast, hname, hunknown⟩ := ih h
      refine ⟨s :: past, t, rest, known', rfl, ?_, ?_, hname, hunknown⟩
      · rw [List.length_cons, Nat.add_assoc, Nat.add_comm 1]
      · unfold namesThrough
        rw [hs]
        exact hpast

end Step

namespace Scenario

/-- The names with which the check of a scenario comes to the steps. -/
def namesAtFirst (s : Scenario) : Except ScenarioFault (List String) := do
  if (Text.trim s.name.toList).isEmpty then throw .emptyName
  if s.steps.isEmpty then throw (.noSteps s.name)
  s.config.check.mapError .badConfig
  s.firstNames

/-- The names that are known to the check of a scenario when it reaches the step that has so many
steps before it; nothing when it is over before. -/
def namesBefore (s : Scenario) (n : Nat) : Except ScenarioFault (List String) := do
  Step.namesThrough 1 (← s.namesAtFirst) (s.steps.take n)

/-- The check of a scenario comes to the steps with names. -/
theorem check_eq (s : Scenario) :
    s.check = (do Step.checkAll 1 (← s.namesAtFirst) s.steps) := by
  unfold check namesAtFirst
  by_cases hname : (Text.trim s.name.toList).isEmpty = true
  · simp only [hname]
    rfl
  · by_cases hsteps : s.steps.isEmpty = true
    · simp only [hname, hsteps]
      rfl
    · simp only [hname, hsteps]
      cases s.config.check.mapError ScenarioFault.badConfig with
      | error f => rfl
      | ok u => rfl

/-- The check of a scenario goes on with the step that it reaches. -/
theorem check_eq_of_le (s : Scenario) {n : Nat} (hn : n ≤ s.steps.length) :
    s.check = (do Step.checkAll (1 + n) (← s.namesBefore n) (s.steps.drop n)) := by
  rw [check_eq]
  unfold namesBefore
  cases s.namesAtFirst with
  | error f => rfl
  | ok known =>
    have split := Step.checkAll_append 1 known (s.steps.take n) (s.steps.drop n)
    rw [List.take_append_drop, List.length_take_of_le hn] at split
    exact split

/-- The names with which the check comes to the steps are those of the validator and of the
declared accounts. -/
theorem firstNames_of_namesAtFirst {s : Scenario} {known : List String}
    (h : s.namesAtFirst = .ok known) : s.firstNames = .ok known := by
  unfold namesAtFirst at h
  by_cases hname : (Text.trim s.name.toList).isEmpty = true
  · simp only [hname] at h
    cases h
  · by_cases hsteps : s.steps.isEmpty = true
    · simp only [hname, hsteps] at h
      cases h
    · simp only [hname, hsteps] at h
      obtain ⟨u, -, h⟩ := except_bind_ok_iff.1 h
      exact h

/-- The names that are known before the first step are that of the validator and the declared
ones. -/
theorem mem_of_declare {known names : List String} {accounts : List NamedAccount}
    (h : declare known accounts = .ok names) (name : String) :
    name ∈ names ↔ name ∈ known ∨ ∃ a ∈ accounts, a.name = name := by
  induction accounts generalizing known with
  | nil =>
    cases h
    simp
  | cons a rest ih =>
    unfold declare at h
    split at h
    · cases h
    · split at h
      · cases h
      · rw [ih h, List.mem_append, List.mem_singleton, or_assoc]
        simp [eq_comm]

/-- Declarations are refused for another reason than an account that is not known. -/
theorem declare_error {known : List String} {accounts : List NamedAccount} {f : ScenarioFault}
    (h : declare known accounts = .error f) (k : Nat) (name : String) :
    f ≠ .unknownSender k name ∧ f ≠ .unknownAccount k name := by
  induction accounts generalizing known with
  | nil => cases h
  | cons a rest ih =>
    unfold declare at h
    split at h
    · cases h
      exact ⟨fun h => (nomatch h), fun h => (nomatch h)⟩
    · split at h
      · cases h
        exact ⟨fun h => (nomatch h), fun h => (nomatch h)⟩
      · exact ih h

/-- A scenario that is refused for an account that is not known has steps that are. -/
theorem namesAtFirst_error {s : Scenario} {f : ScenarioFault} (h : s.namesAtFirst = .error f)
    (k : Nat) (name : String) : f ≠ .unknownSender k name ∧ f ≠ .unknownAccount k name := by
  unfold namesAtFirst at h
  by_cases hname : (Text.trim s.name.toList).isEmpty = true
  · simp only [hname] at h
    cases h
    exact ⟨fun h => (nomatch h), fun h => (nomatch h)⟩
  · by_cases hsteps : s.steps.isEmpty = true
    · simp only [hname, hsteps] at h
      cases h
      exact ⟨fun h => (nomatch h), fun h => (nomatch h)⟩
    · simp only [hname, hsteps] at h
      cases hconfig : s.config.check with
      | error c =>
        rw [hconfig] at h
        cases h
        exact ⟨fun h => (nomatch h), fun h => (nomatch h)⟩
      | ok u =>
        rw [hconfig] at h
        exact declare_error h k name

/-- The step under whose number a scenario is refused for an account that is not known asks for
that account, and the check reaches it. -/
theorem reached_of_refused {s : Scenario} {k : Nat} {name : String}
    (h : s.check = .error (.unknownSender k name) ∨ s.check = .error (.unknownAccount k name)) :
    ∃ n known step rest, k = 1 + n ∧ n ≤ s.steps.length ∧ s.steps.drop n = step :: rest ∧
      s.namesBefore n = .ok known ∧ step.asksFor = some name ∧ name ∉ known := by
  rw [check_eq] at h
  cases hfirst : s.namesAtFirst with
  | error f =>
    obtain ⟨sender, account⟩ := namesAtFirst_error hfirst k name
    rw [hfirst] at h
    rcases h with h | h
    · cases h
      exact absurd rfl sender
    · cases h
      exact absurd rfl account
  | ok first =>
    rw [hfirst] at h
    obtain ⟨past, step, rest, known, hsteps, hk, hpast, hasks, hunknown⟩ := Step.refused_step h
    refine ⟨past.length, known, step, rest, hk, ?_, ?_, ?_, hasks, hunknown⟩
    · rw [hsteps, List.length_append]
      exact Nat.le_add_right _ _
    · rw [hsteps, List.drop_left]
    · unfold namesBefore
      rw [hfirst, hsteps, List.take_left]
      exact hpast

end Scenario

end TestChain
