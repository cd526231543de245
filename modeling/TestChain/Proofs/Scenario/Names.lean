import TestChain.Proofs.Harness.Beginning
import TestChain.Proofs.Members
import TestChain.Proofs.Scenario.Frames

/-!
# Names of accounts

An executor takes the steps of a scenario with a table of addresses, where the check has a list of
names. As long as both go on, a name is in the list exactly if the table has an address for it
(`Executor.Knows`): each step keeps that (`Executor.ends_perform`), so steps do
(`Executor.knows_takeSteps`), and both begin with the declared names and that of the validator
(`Executor.knows_setUp`). A step misses an account only if it asks for a name that is not known, so
the check is exact (`Executor.check_exact`).
-/

namespace TestChain

namespace Executor

/-! ## Parts of steps -/

/-- The names that have an address are those in a list. -/
def Knows (e : Executor) (known : List String) : Prop :=
  ∀ name, name ∈ known ↔ (e.accounts.lookup name).isSome

/-- A name that has an address stands for it. -/
theorem addressOf_of_lookup {name : String} {a : AccountAddress} {e : Executor}
    (h : e.accounts.lookup name = some a) : addressOf name e = .ok a e := by
  unfold addressOf
  rw [get_bind_eq, h]
  rfl

/-- A name that has no address is refused. -/
theorem addressOf_of_unknown {name : String} {e : Executor}
    (h : e.accounts.lookup name = none) : addressOf name e = .error (.unknownAccount name) e := by
  unfold addressOf
  rw [get_bind_eq, h]
  rfl

/-- A name stands for an address exactly if the table has one for it. -/
theorem exists_addressOf_iff {name : String} {e : Executor} :
    (∃ a, addressOf name e = .ok a e) ↔ (e.accounts.lookup name).isSome := by
  constructor
  · rintro ⟨a, ha⟩
    cases h : e.accounts.lookup name with
    | none =>
      rw [addressOf_of_unknown h] at ha
      cases ha
    | some b => rfl
  · intro h
    obtain ⟨a, ha⟩ := Option.isSome_iff_exists.1 h
    exact ⟨a, addressOf_of_lookup ha⟩

/-- A step that asks for a name without an address fails for want of it and changes nothing. -/
theorem perform_of_unknown {s : Step} {name : String} {e : Executor} (hs : s.asksFor = some name)
    (h : e.accounts.lookup name = none) : perform s e = .error (.unknownAccount name) e := by
  cases s with
  | transfer t =>
    cases hs
    exact bind_of_error (addressOf_of_unknown h) _
  | assertBalance b =>
    cases hs
    exact bind_of_error (addressOf_of_unknown h) _
  | _ => cases hs

/-- If an account is missed, it is one with a property. -/
def Misses (p : String → Prop) (f : StepError) (_ : Executor) : Prop :=
  ∀ name, f = .unknownAccount name → p name

/-- What a local call leaves known is what was known, and it misses no account. -/
theorem Local.ends {α : Type} {x : Call α} (hx : Local x) (known : List String)
    (p : String → Prop) :
    Ends (fun e => e.Knows known) x (fun _ e => e.Knows known) (Misses p) := by
  intro e he
  have ends := hx (fun e => e.Knows known) ⟨fun _ _ h => h, fun _ _ h => h⟩ e he
  cases h : x e with
  | ok a e' =>
    rw [h] at ends
    exact ends
  | error f e' =>
    rw [h] at ends
    exact fun name hf => absurd hf (ends.2 name)

/-- An account is missed only if its name is not known. -/
theorem ends_addressOf {known : List String} {s : Step} {asked : String}
    (hs : s.asksFor = some asked) :
    Ends (fun e => e.Knows known) (addressOf asked) (fun _ e => e.Knows known)
      (Misses fun name => s.asksFor = some name ∧ name ∉ known) := by
  intro e he
  cases h : e.accounts.lookup asked with
  | some a =>
    rw [addressOf_of_lookup h]
    exact he
  | none =>
    rw [addressOf_of_unknown h]
    intro name hname
    cases hname
    refine ⟨hs, fun mem => ?_⟩
    have found := (he _).1 mem
    rw [h] at found
    cases found

/-- A name that had no address has its own one afterwards. -/
theorem ends_addressOrNew {known : List String} (t : NamedTransfer) (p : String → Prop) :
    Ends (fun e => e.Knows known) (addressOrNew t.recipient)
      (fun _ e => e.Knows ((Step.transfer t).namesAfter known)) (Misses p) := by
  intro e he
  unfold addressOrNew
  rw [get_bind_eq]
  have after : (Step.transfer t).namesAfter known =
    if known.contains t.recipient then known else known ++ [t.recipient] := rfl
  cases h : e.accounts.lookup t.recipient with
  | some a =>
    have mem : t.recipient ∈ known := (he _).2 (Option.isSome_of_eq_some h)
    dsimp only
    rw [after, if_pos (List.contains_iff_mem.2 mem)]
    exact he
  | none =>
    have new : t.recipient ∉ known := fun mem => by
      have found := (he _).1 mem
      rw [h] at found
      cases found
    dsimp only
    rw [after, if_neg fun hc => new (List.contains_iff_mem.1 hc)]
    intro name
    show _ ↔ ((Members.put _ _ e.accounts).lookup name).isSome
    rw [Members.lookup_put, List.mem_append, List.mem_singleton]
    split
    · exact iff_of_true (.inr ‹_›) rfl
    · rw [← he name]
      exact or_iff_left ‹_›

/-- A step leaves those names known that the check knows after it, and misses an account only if it
asks for one that is not known. -/
theorem ends_perform (known : List String) (s : Step) :
    Ends (fun e => e.Knows known) (perform s) (fun _ e => e.Knows (s.namesAfter known))
      (Misses fun name => s.asksFor = some name ∧ name ∉ known) := by
  cases s with
  | transfer t =>
    refine (ends_addressOf rfl).bind fun sender => (ends_addressOrNew t _).bind fun recipient => ?_
    exact (local_queue t sender recipient).ends _ _
  | assertBalance b =>
    exact (ends_addressOf rfl).bind fun address => (local_compare b address).ends _ _
  | _ => exact (local_perform rfl).ends known _

/-! ## Scenarios -/

/-- An executor that begins with a step. -/
def reaching (number : Nat) (s : Step) (e : Executor) : Executor :=
  { e with position := number }.say ("--- Step " ++ toString number ++ ": " ++ s.shown ++ " ---")

/-- Taking steps takes the first and, if it succeeds, the others. -/
theorem takeSteps_cons (number : Nat) (s : Step) (rest : List Step) (e : Executor) :
    takeSteps number (s :: rest) e =
      match perform s (e.reaching number s) with
      | .ok _ e' => takeSteps (number + 1) rest e'
      | .error f e' => .error (.step number s f) e' := by
  show (failingAs (.step number s) (perform s) >>= fun _ => takeSteps (number + 1) rest)
    (e.reaching number s) = _
  rw [bind_eq]
  unfold failingAs
  cases perform s (e.reaching number s) with
  | ok u e' => rfl
  | error f e' => rfl

/-- The names that are known do not depend on where an executor is. -/
theorem Knows.reaching {known : List String} {e : Executor} (he : e.Knows known) (number : Nat)
    (s : Step) : (e.reaching number s).Knows known :=
  he

/-- Taking steps takes the first ones and then the others. -/
theorem takeSteps_append (number : Nat) (past rest : List Step) :
    takeSteps number (past ++ rest) =
      (do takeSteps number past; takeSteps (number + past.length) rest) := by
  funext e
  induction past generalizing number e with
  | nil => rfl
  | cons s past ih =>
    rw [List.cons_append, takeSteps_cons, bind_eq, takeSteps_cons]
    cases perform s (e.reaching number s) with
    | error f e' => rfl
    | ok u e' =>
      dsimp only
      rw [ih, List.length_cons, Nat.add_assoc, Nat.add_comm 1, bind_eq]

/-- Steps leave those names known that the check knows after them. -/
theorem knows_takeSteps {number : Nat} {known names : List String} {steps : List Step}
    {e e' : Executor} {u : Unit} (he : e.Knows known)
    (hnames : Step.namesThrough number known steps = .ok names)
    (h : takeSteps number steps e = .ok u e') : e'.Knows names := by
  induction steps generalizing number known e with
  | nil =>
    cases hnames
    cases h
    exact he
  | cons s rest ih =>
    obtain ⟨u₁, -, hnames⟩ := except_bind_ok_iff.1 hnames
    rw [takeSteps_cons] at h
    cases hs : perform s (e.reaching number s) with
    | error f e₁ =>
      rw [hs] at h
      cases h
    | ok u₂ e₁ =>
      rw [hs] at h
      exact ih ((ends_perform known s).of_ok (he.reaching number s) hs) hnames h

/-- Steps that the check lets pass miss no account. -/
theorem misses_takeSteps {number : Nat} {known : List String} {steps : List Step}
    {e e' : Executor} {f : Failure} (he : e.Knows known)
    (hcheck : Step.checkAll number known steps = .ok ())
    (h : takeSteps number steps e = .error f e') : ∀ name, f.cause ≠ .unknownAccount name := by
  induction steps generalizing number known e with
  | nil => cases h
  | cons s rest ih =>
    obtain ⟨u₁, hs, hcheck⟩ := except_bind_ok_iff.1 hcheck
    rw [takeSteps_cons] at h
    cases hperform : perform s (e.reaching number s) with
    | error c e₁ =>
      rw [hperform] at h
      cases h
      intro name hname
      obtain ⟨hasks, hunknown⟩ :=
        (ends_perform known s).of_error (he.reaching number s) hperform name hname
      exact hunknown (Step.known_of_check hs hasks)
    | ok u₂ e₁ =>
      rw [hperform] at h
      exact ih ((ends_perform known s).of_ok (he.reaching number s) hperform) hcheck h

/-- Declaring accounts names them, besides those that were named before. -/
theorem lookup_declare (denom : String) (accounts : List NamedAccount) (e : Executor)
    (name : String) :
    ((accounts.foldl (fun e a => e.declare denom a) e).accounts.lookup name).isSome ↔
      (e.accounts.lookup name).isSome ∨ ∃ a ∈ accounts, a.name = name := by
  induction accounts generalizing e with
  | nil => simp
  | cons a rest ih =>
    have first : ((e.declare denom a).accounts.lookup name).isSome ↔
        (e.accounts.lookup name).isSome ∨ a.name = name := by
      show ((Members.put a.name _ e.accounts).lookup name).isSome ↔ _
      rw [Members.lookup_put]
      split
      · exact iff_of_true rfl (.inr (Eq.symm ‹_›))
      · exact (or_iff_left (Ne.symm ‹_›)).symm
    rw [List.foldl_cons, ih, first, or_assoc]
    simp

/-- Setting a harness up names the declared accounts and the validator. -/
theorem knows_setUp {around : Surroundings} {s : Scenario} {names : List String}
    {e e' : Executor} {u : Unit} (hfirst : s.firstNames = .ok names) (he : e.accounts = [])
    (h : setUp around s e = .ok u e') : e'.Knows names := by
  rw [setUp_eq] at h
  cases hstart : Harness.start around s.fundedConfig with
  | error f =>
    rw [hstart] at h
    cases h
  | ok g =>
    rw [hstart] at h
    cases h
    intro name
    rw [Scenario.mem_of_declare hfirst name, List.mem_singleton]
    show _ ↔ ((Members.put _ _ (s.accounts.foldl _ e).accounts).lookup name).isSome
    rw [Members.lookup_put]
    split
    · exact iff_of_true (.inl ‹_›) rfl
    · rw [lookup_declare, he]
      simp [‹name ≠ _›]

/-- What goes wrong when a harness is set up is not for want of an account. -/
theorem steady_setUp {around : Surroundings} {s : Scenario} {e e' : Executor} {f : StepError}
    (h : setUp around s e = .error f e') (name : String) : f ≠ .unknownAccount name := by
  rw [setUp_eq] at h
  cases hstart : Harness.start around s.fundedConfig with
  | error c =>
    rw [hstart] at h
    cases h
    exact fun h => (nomatch h)
  | ok g =>
    rw [hstart] at h
    cases h

/-- Does a scenario up to the step that has so many steps before it. -/
def followTo (around : Surroundings) (s : Scenario) (n : Nat) : Run Unit := do
  modify fun e => e.clear.say ("Starting scenario: " ++ s.name)
  if let some d := s.description then modify (say ("Description: " ++ d))
  failingAs .setup (setUp around s)
  takeSteps 1 (s.steps.take n)

/-- An executor that begins with a scenario. -/
def beginning (s : Scenario) (e : Executor) : Executor :=
  let e := e.clear.say ("Starting scenario: " ++ s.name)
  match s.description with
  | some d => e.say ("Description: " ++ d)
  | none => e

/-- An executor that begins with a scenario knows no names. -/
theorem beginning_accounts (s : Scenario) (e : Executor) : (e.beginning s).accounts = [] := by
  unfold beginning
  cases s.description with
  | some d => rfl
  | none => rfl

/-- Doing a scenario up to a step sets the harness up and takes the steps before. -/
theorem followTo_eq (around : Surroundings) (s : Scenario) (n : Nat) (e : Executor) :
    followTo around s n e =
      match setUp around s (e.beginning s) with
      | .ok _ e' => takeSteps 1 (s.steps.take n) e'
      | .error f e' => .error (.setup f) e' := by
  have afterwards : followTo around s n e =
      (failingAs .setup (setUp around s) >>= fun _ => takeSteps 1 (s.steps.take n))
        (e.beginning s) := by
    unfold followTo beginning
    cases s.description with
    | some d => rfl
    | none => rfl
  rw [afterwards, bind_eq]
  unfold failingAs
  cases setUp around s (e.beginning s) with
  | ok u e' => rfl
  | error f e' => rfl

/-- A scenario that is done goes on with the step that it reaches. -/
theorem follow_eq (around : Surroundings) (s : Scenario) {n : Nat} (hn : n ≤ s.steps.length) :
    follow around s = (do
      followTo around s n
      takeSteps (1 + n) (s.steps.drop n)
      modify (say "=== Scenario completed successfully ===")) := by
  have steps : takeSteps 1 s.steps =
      (do takeSteps 1 (s.steps.take n); takeSteps (1 + n) (s.steps.drop n)) := by
    have split := takeSteps_append 1 (s.steps.take n) (s.steps.drop n)
    rw [List.take_append_drop, List.length_take_of_le hn] at split
    exact split
  funext e
  have begun : follow around s e =
      (failingAs .setup (setUp around s) >>= fun _ => takeSteps 1 s.steps >>= fun _ =>
        modify (say "=== Scenario completed successfully ===")) (e.beginning s) := by
    unfold follow beginning
    cases s.description with
    | some d => rfl
    | none => rfl
  rw [begun, steps, bind_eq, bind_eq, followTo_eq]
  unfold failingAs
  cases setUp around s (e.beginning s) with
  | error f e' => rfl
  | ok u e' =>
    dsimp only
    rw [bind_eq, bind_eq]
    cases takeSteps 1 (s.steps.take n) e' with
    | error f e'' => rfl
    | ok u e'' => rfl

/-- When the check of a scenario and an executor both reach a step, they know the same names. -/
theorem knows_followTo {around : Surroundings} {s : Scenario} {n : Nat} {known : List String}
    {e e' : Executor} {u : Unit} (hnames : s.namesBefore n = .ok known)
    (h : followTo around s n e = .ok u e') : e'.Knows known := by
  obtain ⟨first, hfirst, hnames⟩ := except_bind_ok_iff.1 hnames
  rw [followTo_eq] at h
  cases hsetUp : setUp around s (e.beginning s) with
  | error f e₁ =>
    rw [hsetUp] at h
    cases h
  | ok u₁ e₁ =>
    rw [hsetUp] at h
    have knows :=
      knows_setUp (Scenario.firstNames_of_namesAtFirst hfirst) (beginning_accounts s e) hsetUp
    exact knows_takeSteps knows hnames h

/-- A scenario that is not refused misses no account. -/
theorem misses_follow {around : Surroundings} {s : Scenario} {e e' : Executor} {f : Failure}
    (hcheck : s.check = .ok ()) (h : follow around s e = .error f e') (name : String) :
    f.cause ≠ .unknownAccount name := by
  rw [s.check_eq_of_le (Nat.zero_le _)] at hcheck
  obtain ⟨known, hknown, hcheck⟩ := except_bind_ok_iff.1 hcheck
  rw [follow_eq around s (Nat.zero_le _)] at h
  rcases bind_error_iff.1 h with h | ⟨u, e₁, hto, h⟩
  · rw [followTo_eq] at h
    cases hsetUp : setUp around s (e.beginning s) with
    | error c e₁ =>
      rw [hsetUp] at h
      cases h
      exact steady_setUp hsetUp name
    | ok u₁ e₁ =>
      rw [hsetUp] at h
      cases h
  · rcases bind_error_iff.1 h with h | ⟨u₁, e₂, -, h⟩
    · exact misses_takeSteps (knows_followTo hknown hto) hcheck h name
    · cases h

/-- A scenario that is refused at a step for an account that is not known fails at that step for
want of the account, if an executor gets that far. -/
theorem fails_follow {around : Surroundings} {s : Scenario} {n : Nat} {name : String}
    {e e₁ : Executor} {u : Unit}
    (hcheck : s.check = .error (.unknownSender (1 + n) name) ∨
      s.check = .error (.unknownAccount (1 + n) name))
    (h : followTo around s n e = .ok u e₁) :
    ∃ step e', s.steps[n]? = some step ∧
      follow around s e = .error (.step (1 + n) step (.unknownAccount name)) e' ∧
      e'.position = 1 + n := by
  obtain ⟨m, known, step, rest, hm, hle, hdrop, hknown, hasks, hunknown⟩ :=
    Scenario.reached_of_refused hcheck
  cases Nat.add_left_cancel hm
  have missing : e₁.accounts.lookup name = none := by
    rw [← Option.not_isSome_iff_eq_none]
    exact fun found => hunknown ((knows_followTo hknown h name).2 found)
  have fails : takeSteps (1 + n) (s.steps.drop n) e₁ =
      .error (.step (1 + n) step (.unknownAccount name)) (e₁.reaching (1 + n) step) := by
    have failed : perform step (e₁.reaching (1 + n) step) = _ := perform_of_unknown hasks missing
    rw [hdrop, takeSteps_cons, failed]
  refine ⟨step, e₁.reaching (1 + n) step, ?_, ?_, rfl⟩
  · rw [← List.head?_drop, hdrop]
    rfl
  · rw [follow_eq around s hle, bind_of_ok h, bind_of_error fails]

/-- The check of names is exact. When the check of a scenario and an executor both reach a step, the
names that are known to the one are those that stand for an address to the other. So a scenario
that is not refused never fails for want of an account, and one that is refused for an account that
is not known fails for want of it at the step for which it is refused, unless it fails before. -/
theorem check_exact (around : Surroundings) (s : Scenario) (e : Executor) :
    (∀ n known u e', s.namesBefore n = .ok known → followTo around s n e = .ok u e' →
      ∀ name, name ∈ known ↔ ∃ a, addressOf name e' = .ok a e') ∧
    (s.check = .ok () → ∀ f e' name, follow around s e = .error f e' →
      f.cause ≠ .unknownAccount name) ∧
    ∀ n name u e₁, (s.check = .error (.unknownSender (1 + n) name) ∨
        s.check = .error (.unknownAccount (1 + n) name)) →
      followTo around s n e = .ok u e₁ →
      ∃ step e', s.steps[n]? = some step ∧
        follow around s e = .error (.step (1 + n) step (.unknownAccount name)) e' ∧
        (run around s e).1.failedStep = some (1 + n) := by
  refine ⟨fun n known u e' hnames h name => ?_, fun hcheck f e' name h => ?_,
    fun n name u e₁ hcheck h => ?_⟩
  · rw [knows_followTo hnames h name, exists_addressOf_iff]
  · exact misses_follow hcheck h name
  · obtain ⟨step, e', hstep, hfails, hposition⟩ := fails_follow hcheck h
    refine ⟨step, e', hstep, hfails, ?_⟩
    have reported : (run around s e).1.failedStep =
        if 0 < e'.position then some e'.position else none := by
      unfold run
      rw [hfails]
      rfl
    rw [reported, hposition, if_pos (Nat.lt_add_right n Nat.one_pos)]

/-- Setting up succeeds where the harness begins. -/
theorem setUp_of_start {around : Surroundings} {s : Scenario} {h : Harness}
    (hstart : Harness.start around s.fundedConfig = .ok h) (e : Executor) :
    ∃ e', setUp around s e = .ok () e' ∧ e'.harness = some h := by
  rw [setUp_eq, hstart]
  exact ⟨_, rfl, rfl⟩

/-- A harness can always be told to reject the next proposal. -/
theorem perform_rejectNextProposal {e : Executor} {h : Harness} (he : e.harness = some h) :
    ∃ e', perform .rejectNextProposal e = .ok () e' := by
  have harness : theHarness e = .ok h e := by
    unfold theHarness
    rw [get_bind_eq, he]
    rfl
  show ∃ e', (onHarness (modify (Harness.onApp App.rejectNextProposal)) >>= fun _ =>
    note "  Next proposal will be rejected") e = .ok () e'
  unfold onHarness attempt
  rw [bind_eq, bind_eq, bind_of_ok harness]
  exact ⟨_, rfl⟩

/-- A scenario whose harness begins gets beyond a first step by which the next proposal is to be
rejected. -/
theorem followTo_rejectNextProposal {around : Surroundings} {s : Scenario} {h : Harness}
    {rest : List Step} (hstart : Harness.start around s.fundedConfig = .ok h)
    (hsteps : s.steps = .rejectNextProposal :: rest) (e : Executor) :
    ∃ e', followTo around s 1 e = .ok () e' := by
  obtain ⟨e₁, hsetUp, hharness⟩ := setUp_of_start hstart (e.beginning s)
  have first : s.steps.take 1 = [.rejectNextProposal] := by
    rw [hsteps]
    rfl
  rw [followTo_eq, hsetUp, first]
  dsimp only
  have ready : (e₁.reaching 1 .rejectNextProposal).harness = some h := hharness
  obtain ⟨e₂, hperform⟩ := perform_rejectNextProposal ready
  rw [takeSteps_cons, hperform]
  exact ⟨e₂, rfl⟩

/-- A scenario of the fresh configuration, without accounts of its own. -/
def bare (steps : List Step) : Scenario where
  name := "names"
  description := none
  config := .fresh
  accounts := []
  steps := steps

/-- It gets beyond such a step. -/
theorem followTo_bare (rest : List Step) (e : Executor) :
    ∃ e', followTo ⟨1700000000000, 1⟩ (bare (.rejectNextProposal :: rest)) 1 e = .ok () e' := by
  obtain ⟨l, h, -, -, hstart⟩ := Harness.start_of_buildable rfl
    (Harness.buildable_crediting [] (by decide)
      (Harness.fundedAddress ⟨1700000000000, 1⟩ (Harness.crediting [])))
  have same : (bare (.rejectNextProposal :: rest)).fundedConfig = Harness.crediting [] := rfl
  rw [← same] at hstart
  exact followTo_rejectNextProposal hstart rfl e

/-- A scenario with the balance of the validator passes the check and misses no account; one with a
payment by somebody else gets to its second step and fails there. -/
theorem exists_missed_account :
    (bare [.assertBalance ⟨"validator", none, none, some 1, none⟩]).check = .ok () ∧
    (∀ f e' name, follow ⟨1700000000000, 1⟩
        (bare [.assertBalance ⟨"validator", none, none, some 1, none⟩]) .fresh = .error f e' →
      f.cause ≠ .unknownAccount name) ∧
    ∃ e₁ step e', followTo ⟨1700000000000, 1⟩
        (bare [.rejectNextProposal, .transfer ⟨"ghost", "validator", 1⟩]) 1 .fresh = .ok () e₁ ∧
      (∃ a, addressOf "validator" e₁ = .ok a e₁) ∧ (¬∃ a, addressOf "ghost" e₁ = .ok a e₁) ∧
      follow ⟨1700000000000, 1⟩
        (bare [.rejectNextProposal, .transfer ⟨"ghost", "validator", 1⟩]) .fresh =
          .error (.step 2 step (.unknownAccount "ghost")) e' := by
  have exact₁ := check_exact ⟨1700000000000, 1⟩
    (bare [.assertBalance ⟨"validator", none, none, some 1, none⟩]) .fresh
  have exact₂ := check_exact ⟨1700000000000, 1⟩
    (bare [.rejectNextProposal, .transfer ⟨"ghost", "validator", 1⟩]) .fresh
  have passes : (bare [.assertBalance ⟨"validator", none, none, some 1, none⟩]).check = .ok () :=
    rfl
  have known : (bare [.rejectNextProposal, .transfer ⟨"ghost", "validator", 1⟩]).namesBefore 1 =
    .ok ["validator"] := rfl
  obtain ⟨e₁, hto⟩ := followTo_bare [.transfer ⟨"ghost", "validator", 1⟩] .fresh
  obtain ⟨step, e', -, hfails, -⟩ := exact₂.2.2 1 "ghost" () e₁ (.inl rfl) hto
  have names := exact₂.1 1 _ () e₁ known hto
  exact ⟨passes, exact₁.2.1 passes, e₁, step, e', hto, (names "validator").1 (by decide),
    fun found => absurd ((names "ghost").2 found) (by decide), hfails⟩

end Executor

end TestChain
