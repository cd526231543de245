import TestChain.Proofs.Scenario.Checking
import TestChain.Scenario.Report

/-!
# What steps leave alone

The parts of which steps are made write lines behind the log and put a harness in place of another.
A call of which nothing else is part keeps every property that these two leave alone (`Apart`), and
it does not miss an account (`Local`). The steps that ask for no account are such calls
(`Executor.local_perform`); the others may give an address a name as well, so a property that a new
name leaves alone too is kept by every step (`Executor.keeps_perform`). Setting up names addresses
before it puts the harness in its place (`Executor.setUp_eq`).
-/

namespace TestChain

namespace Executor

/-- A property of executors that does not depend on the log, nor on which harness there is. -/
structure Apart (P : Executor → Prop) : Prop where
  /-- A further line of the log leaves it. -/
  say : ∀ line e, P e → P (e.say line)
  /-- Another harness leaves it. -/
  harness : ∀ h e, P e → P { e with harness := some h }

/-- A call that keeps what does not depend on the log and the harness and misses no account. -/
def Local {α : Type} (x : Call α) : Prop :=
  ∀ P, Apart P → Ends P x (fun _ => P) fun f e => P e ∧ ∀ name, f ≠ .unknownAccount name

namespace Local

variable {α β : Type}

/-- Doing nothing is local. -/
theorem pure (a : α) : Local (Pure.pure a) :=
  fun _ _ => Ends.pure fun _ h => h

/-- So is a refusal that is not for want of an account. -/
theorem throw {f : StepError} (hf : ∀ name, f ≠ .unknownAccount name) :
    Local (MonadExcept.throw f : Call α) :=
  fun _ _ => Ends.throw fun _ h => ⟨h, hf⟩

/-- A sequence of local calls is local. -/
theorem bind {x : Call α} {g : α → Call β} (hx : Local x) (hg : ∀ a, Local (g a)) :
    Local (x >>= g) :=
  fun P hP => (hx P hP).bind fun a => hg a P hP

/-- Writing to the log is local. -/
theorem note (line : String) : Local (note line) :=
  fun _ hP => Ends.change (hP.say line)

/-- Asking for the harness is local. -/
theorem theHarness : Local theHarness := by
  intro P _ e he
  unfold Executor.theHarness
  rw [get_bind_eq]
  cases e.harness with
  | some h => exact he
  | none => exact ⟨he, fun _ h => (nomatch h)⟩

/-- Calling the harness is local, whatever it answers. -/
theorem attempt (x : Harness.Call α) : Local (attempt x) := by
  refine theHarness.bind fun h => ?_
  have place (h' : Harness) : Local (modify fun e => { e with harness := some h' }) :=
    fun _ hP => Ends.change (hP.harness h')
  cases x h with
  | ok a h' => exact (place h').bind fun _ => pure _
  | error f h' => exact (place h').bind fun _ => pure _

/-- Calling the harness is local also where its errors are those of the step. -/
theorem onHarness (x : Harness.Call α) : Local (onHarness x) := by
  refine (attempt x).bind fun r => ?_
  cases r with
  | ok a => exact pure a
  | error f => exact throw fun _ h => (nomatch h)

/-- A test is local if what comes after it is, and its refusal is not for want of an account. -/
theorem test {p : Prop} [Decidable p] {f : StepError} {g : PUnit → Call α} {x : Call α}
    (hf : ∀ name, f ≠ .unknownAccount name) (hx : Local x) :
    Local (if p then MonadExcept.throw f >>= g else x) := by
  split
  · exact fun _ _ e he => ⟨he, hf⟩
  · exact hx

end Local

/-! ## Steps -/

/-- Closing a block whose proposal is to be rejected is local. -/
theorem local_endRejected : Local endRejected := by
  refine (Local.attempt _).bind fun r => ?_
  cases r with
  | ok response => exact .throw fun _ h => (nomatch h)
  | error f =>
    dsimp only
    split
    · exact .note _
    · exact .throw fun _ h => (nomatch h)

/-- Closing a block that is to be committed is local. -/
theorem local_endCommitted (expect : Expectation) : Local (endCommitted expect) := by
  refine (Local.onHarness _).bind fun response => ?_
  have last (line : Harness → String) :
      Local (theHarness >>= fun h => note (line h)) := Local.theHarness.bind fun h => .note _
  dsimp only
  split
  · refine .test (fun _ h => (nomatch h)) ?_
    split
    · exact .test (fun _ h => (nomatch h)) (last _)
    · exact last _
  · split
    · exact .test (fun _ h => (nomatch h)) (last _)
    · exact last _

/-- Comparing a balance with its bounds is local. -/
theorem local_compareBalance (actual : UInt64) (b : BalanceBounds) :
    Local (compareBalance actual b) := by
  obtain ⟨account, denom, equal, atLeast, atMost⟩ := b
  have upper : Local (compareBalance actual ⟨account, denom, none, none, atMost⟩) := by
    cases atMost with
    | none => exact .pure _
    | some n => exact .test (fun _ h => (nomatch h)) (.note _)
  have lower : Local (compareBalance actual ⟨account, denom, none, atLeast, atMost⟩) := by
    cases atLeast with
    | none => exact upper
    | some n => exact .test (fun _ h => (nomatch h)) ((Local.note _).bind fun _ => upper)
  cases equal with
  | none => exact lower
  | some n => exact .test (fun _ h => (nomatch h)) ((Local.note _).bind fun _ => lower)

/-- Comparing the time with an offset is local. -/
theorem local_assertTimeOffset (seconds : UInt64) : Local (assertTimeOffset seconds) := by
  refine Local.theHarness.bind fun h => ?_
  refine .test (fun _ h => (nomatch h)) ?_
  exact .test (fun _ h => (nomatch h)) (.note _)

/-- What a transfer does once both accounts are found is local. -/
theorem local_queue (t : NamedTransfer) (sender recipient : AccountAddress) :
    Local (do
      let denom := (← theHarness).config.bondDenom
      onHarness (Harness.execute (Transfer.tx ⟨sender, recipient, .single t.amount denom⟩))
      note ("  Transfer queued: " ++ t.sender ++ " -> " ++ t.recipient ++
        " (" ++ shownWord t.amount ++ denom ++ ")")) :=
  Local.theHarness.bind fun _ => (Local.onHarness _).bind fun _ => .note _

/-- What an assertion about a balance does once the account is found is local. -/
theorem local_compare (b : BalanceBounds) (address : AccountAddress) :
    Local (do
      let denom := b.denom.getD (← theHarness).config.bondDenom
      let actual ← onHarness (Harness.balance address denom)
      note ("Assert balance for '" ++ b.account ++ "': actual=" ++ shownWord actual ++ denom)
      compareBalance actual b) :=
  Local.theHarness.bind fun _ => (Local.onHarness _).bind fun _ =>
    (Local.note _).bind fun _ => local_compareBalance _ _

/-- A step that asks for no account is local. -/
theorem local_perform {s : Step} (h : s.asksFor = none) : Local (perform s) := by
  cases s with
  | beginBlock epoch seconds =>
    exact (Local.onHarness _).bind fun _ => Local.theHarness.bind fun h => .note _
  | execute tx => exact (Local.onHarness _).bind fun _ => .note _
  | transfer t => cases h
  | endBlock expect =>
    show Local (if (expect.getD .none).rejected then endRejected
      else endCommitted (expect.getD .none))
    split
    · exact local_endRejected
    · exact local_endCommitted _
  | skipBlocks count => exact (Local.onHarness _).bind fun _ => .note _
  | increaseTime seconds => exact (Local.onHarness _).bind fun _ => .note _
  | fundValidators => exact (Local.onHarness _).bind fun _ => .note _
  | rejectNextProposal => exact (Local.onHarness _).bind fun _ => .note _
  | assertHeight height =>
    refine Local.theHarness.bind fun h => ?_
    exact .test (fun _ h => (nomatch h)) (.note _)
  | assertTimeOffset seconds => exact local_assertTimeOffset seconds
  | assertBalance b => cases h

variable {P : Executor → Prop}

/-- What does not depend on the log and the harness is kept by a local call. -/
theorem Local.keeps {α : Type} {x : Call α} (hx : Local x) (hP : Apart P) :
    Ends P x (fun _ => P) fun _ => P := by
  intro e he
  have ends := hx P hP e he
  cases h : x e with
  | ok a e' =>
    rw [h] at ends
    exact ends
  | error f e' =>
    rw [h] at ends
    exact ends.1

/-- Asking for the address of a name changes nothing. -/
theorem keeps_addressOf (name : String) : Ends P (addressOf name) (fun _ => P) fun _ => P := by
  intro e he
  unfold addressOf
  rw [get_bind_eq]
  cases e.accounts.lookup name with
  | some a => exact he
  | none => exact he

/-- Asking for the address of a name that may be new changes nothing but the names. -/
theorem keeps_addressOrNew (named : ∀ name a e, P e → P (e.nameAccount name a)) (name : String) :
    Ends P (addressOrNew name) (fun _ => P) fun _ => P := by
  intro e he
  unfold addressOrNew
  rw [get_bind_eq]
  cases e.accounts.lookup name with
  | some a => exact he
  | none => exact named name _ e he

/-- What depends neither on the log, the harness nor the names is kept by every step. -/
theorem keeps_perform (hP : Apart P) (named : ∀ name a e, P e → P (e.nameAccount name a))
    (s : Step) : Ends P (perform s) (fun _ => P) fun _ => P := by
  cases s with
  | transfer t =>
    refine (keeps_addressOf _).bind fun sender => (keeps_addressOrNew named _).bind fun a => ?_
    exact (local_queue t sender a).keeps hP
  | assertBalance b =>
    exact (keeps_addressOf _).bind fun address => (local_compare b address).keeps hP
  | _ => exact (local_perform rfl).keeps hP

/-! ## Setting up -/

/-- An executor that has named the declared accounts. -/
def declaring (s : Scenario) (e : Executor) : Executor :=
  s.accounts.foldl (fun e a => e.declare s.config.bondDenom a) e

/-- An executor that has named the declared accounts and the validator, with a harness. -/
def equipped (s : Scenario) (h : Harness) (e : Executor) : Executor :=
  { ((e.declaring s).nameAccount Scenario.validatorName h.genesisKey.accountAddress).say
      ("Genesis complete: chain " ++ h.context.chainId ++ ", " ++ toString s.accounts.length ++
        " named account(s)") with harness := some h }

/-- Setting up names the accounts, and goes on exactly if a harness begins. -/
theorem setUp_eq (around : Surroundings) (s : Scenario) (e : Executor) :
    setUp around s e =
      match Harness.start around s.fundedConfig with
      | .ok h => .ok () (e.equipped s h)
      | .error f => .error (.harness f) (e.declaring s) := by
  unfold setUp
  rw [modify_bind_eq]
  cases Harness.start around s.fundedConfig with
  | ok h => rfl
  | error f => rfl

end Executor

end TestChain
