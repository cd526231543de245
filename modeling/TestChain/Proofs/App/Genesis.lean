import TestChain.Proofs.App.Calls

/-!
# Beginning the chain

What a genesis document writes is a store (`Opening.writeTo`, `genesisStore`), for writing cannot
fail: a document is refused before the first write or not at all (`applyGenesis_eq`). So the chain
begins with all of the document's states (`initChain_ok_iff`), or the call leaves the application as
it was (`initChain_error`).
-/

namespace TestChain

namespace Ledger

variable {α β : Type}

/-- The store with the values of some elements written in order. -/
def writeAll (c : Codec α) (key : β → Bytes) (value : β → α) (l : List β) (s : Store) : Store :=
  l.foldl (fun s b => s.write c (key b) (value b)) s

/-- Writing a value cannot fail. -/
@[simp]
theorem put_eq (c : Codec α) (k : Bytes) (a : α) (s : Store) :
    put c k a s = .ok ⟨⟩ (s.write c k a) := rfl

/-- Writing values in order cannot fail. -/
theorem forM_put_eq (c : Codec α) (key : β → Bytes) (value : β → α) (l : List β) (s : Store) :
    (l.forM fun b => put c (key b) (value b)) s = .ok ⟨⟩ (writeAll c key value l s) := by
  induction l generalizing s with
  | nil => rfl
  | cons b rest ih =>
    -- The first value is written, and the others are written to the store that it leaves.
    show (put c (key b) (value b) >>= fun _ => rest.forM fun b => put c (key b) (value b)) s = _
    rw [bind_of_ok (put_eq c _ _ s)]
    exact ih _

/-- The store with the states that the ledger begins with. -/
def Opening.writeTo (o : Opening) (s : Store) : Store :=
  let s := writeAll Account.codec (fun a => accountKey a.address) id o.auth.accounts s
  let s := writeAll Coins.codec (fun b => balanceKey b.address) (fun b => b.coins) o.bank.balances s
  let s := s.write Coins.codec supplyKey o.bank.supply
  let s := writeAll Validator.codec (fun v => validatorKey v.operatorAddress) id
    o.staking.validators s
  let s := writeAll Delegation.codec (fun d => delegationKey d.delegator d.validator) id
    o.staking.delegations s
  writeAll SigningInfo.codec (fun i => signingInfoKey i.address) id o.slashing.signingInfos s

/-- Writing the states that the ledger begins with cannot fail. -/
theorem putOpening_eq (o : Opening) (s : Store) : putOpening o s = .ok ⟨⟩ (o.writeTo s) := by
  unfold putOpening Opening.writeTo
  rw [bind_of_ok (forM_put_eq _ _ _ _ s), bind_of_ok (forM_put_eq _ _ _ _ _),
    bind_of_ok (put_eq _ _ _ _), bind_of_ok (forM_put_eq _ _ _ _ _),
    bind_of_ok (forM_put_eq _ _ _ _ _), forM_put_eq]
  rfl

/-- The store with the states of a document: those that the ledger begins with, and each module's as
it is. -/
def genesisStore (d : GenesisDocument) (o : Opening) (s : Store) : Store :=
  writeAll Codec.json (fun m => moduleKey m.1) (fun m => m.2) d.modules (o.writeTo s)

/-- A document is refused before anything is written, or all of it is written. -/
theorem applyGenesis_eq (d : GenesisDocument) (s : Store) :
    applyGenesis d s =
      match Opening.ofDocument d with
      | .error e => .error (.invalidGenesis e) s
      | .ok o => .ok (updates o.staking.validators) (genesisStore d o s) := by
  unfold applyGenesis genesisStore
  cases Opening.ofDocument d with
  | error e => rfl
  | ok o =>
    dsimp only
    rw [bind_of_ok (putOpening_eq o s), bind_of_ok (forM_put_eq _ _ _ _ _)]
    rfl

end Ledger

namespace App

/-- The application whose chain has begun with a ledger. -/
def opened (a : App) (r : InitRequest) (s : Store) : App :=
  { a with
    store := s.commit
    consensusParams := some r.consensusParams
    lastHeight := if r.initialHeight = 0 then 0 else r.initialHeight - 1
    lastAppHash := s.commit.root }

/-- The document of a request, once it is accepted. -/
def acceptedDocument (r : InitRequest) : Except GenesisError GenesisDocument := do
  let doc ← GenesisDocument.ofBytes r.appState
  let _ ← doc.validate
  return doc

/-- The outcome of beginning the chain, test by test. -/
theorem initChain_eq (r : InitRequest) (a : App) :
    initChain r a =
      if a.isInitialized then .error .alreadyInitialized a
      else if a.failures.contains .initChain then .error (.aborted .initChain) (a.spent .initChain)
      else if r.chainId ≠ a.chainId then
        .error (.invalidRequest (.otherChain r.chainId a.chainId)) a
      else
        match acceptedDocument r with
        | .error e => .error (.invalidGenesis e) a
        | .ok d =>
          match Ledger.Opening.ofDocument d with
          | .error e => .error (.invalidGenesis e) a
          | .ok o =>
            .ok ⟨Ledger.updates o.staking.validators, (Ledger.genesisStore d o a.store).commit.root⟩
              (a.opened r (Ledger.genesisStore d o a.store)) := by
  unfold initChain
  rw [get_bind_eq]
  -- The tests are made in the order of the statement, and each of them ends the call or is passed.
  by_cases hi : a.isInitialized = true
  · rw [if_pos hi, if_pos hi]
    rfl
  rw [if_neg hi, if_neg hi]
  dsimp only
  by_cases hf : a.failures.contains .initChain = true
  · rw [if_pos hf, bind_of_error (by rw [checkFailure_eq, if_pos hf])]
  rw [if_neg hf, bind_of_ok (by rw [checkFailure_eq, if_neg hf]), get_bind_eq]
  by_cases hc : r.chainId ≠ a.chainId
  · rw [if_pos hc, if_pos hc]
    rfl
  rw [if_neg hc, if_neg hc]
  generalize hd : acceptedDocument r = accepted
  unfold acceptedDocument at hd
  rw [hd]
  cases accepted with
  | error e => rfl
  | ok d =>
    dsimp only
    rw [bind_eq]
    unfold onLedger
    rw [Ledger.applyGenesis_eq]
    cases Ledger.Opening.ofDocument d with
    | error e => rfl
    | ok o => rfl

/-- A document is that of a request exactly if it is read from it and valid. -/
theorem acceptedDocument_ok_iff {r : InitRequest} {d : GenesisDocument} :
    acceptedDocument r = .ok d ↔
      GenesisDocument.ofBytes r.appState = .ok d ∧ ∃ hash, d.validate = .ok hash := by
  unfold acceptedDocument
  cases hd : GenesisDocument.ofBytes r.appState with
  | error e => simp [bind, Except.bind]
  | ok d' =>
    cases hv : d'.validate with
    | error e =>
      simp only [bind, Except.bind, hv, Except.ok.injEq, reduceCtorEq, false_iff, not_and]
      rintro rfl ⟨hash, h⟩
      rw [hv] at h
      cases h
    | ok hash =>
      simp only [bind, Except.bind, hv, pure, Except.pure, Except.ok.injEq]
      constructor
      · rintro rfl
        exact ⟨rfl, hash, hv⟩
      · exact fun h => h.1

/-- The chain begins exactly if it has not begun, no failure is injected, the request is for this
chain and its document is accepted; the ledger then has all of the document's states. -/
theorem initChain_ok_iff {r : InitRequest} {a a' : App} {v : InitResponse} :
    initChain r a = .ok v a' ↔
      a.isInitialized = false ∧ a.failures.contains .initChain = false ∧ r.chainId = a.chainId ∧
        ∃ d o, acceptedDocument r = .ok d ∧ Ledger.Opening.ofDocument d = .ok o ∧
          a' = a.opened r (Ledger.genesisStore d o a.store) ∧
          v = ⟨Ledger.updates o.staking.validators, a'.lastAppHash⟩ := by
  -- The tests are made one after the other, and each that fails ends the call.
  rw [initChain_eq]
  constructor
  · intro h
    split at h
    · cases h
    · rename_i hi
      split at h
      · cases h
      · rename_i hf
        split at h
        · cases h
        · rename_i hc
          split at h
          · cases h
          · rename_i d hd
            split at h
            · cases h
            · rename_i o ho
              cases h
              exact ⟨by simpa using hi, by simpa using hf, by simpa using hc, d, o, hd, ho, rfl,
                rfl⟩
  · rintro ⟨hi, hf, hc, d, o, hd, ho, rfl, rfl⟩
    rw [if_neg (by simp only [hi, Bool.false_eq_true, not_false_eq_true]),
      if_neg (by simp only [hf, Bool.false_eq_true, not_false_eq_true]), if_neg (by simp [hc]), hd]
    dsimp only
    rw [ho]
    rfl

/-- Where the chain does not begin, the application stays as it is, but for an injected failure. -/
theorem initChain_error {r : InitRequest} {a a' : App} {e : AppError}
    (h : initChain r a = .error e a') : a' = a ∨ a' = a.spent .initChain := by
  -- Of what ends the call only the injected failure changes the application; nothing is written.
  rw [initChain_eq] at h
  split at h
  · cases h
    exact .inl rfl
  split at h
  · cases h
    exact .inr rfl
  split at h
  · cases h
    exact .inl rfl
  split at h
  · cases h
    exact .inl rfl
  · split at h
    · cases h
      exact .inl rfl
    · cases h

end App

end TestChain
