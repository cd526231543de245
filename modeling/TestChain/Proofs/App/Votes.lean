import TestChain.Proofs.App.Execution

/-!
# Counting votes

A vote is counted in the signing info of its validator. That fails only where something else is
stored in its place. Where the signing infos can be read votes can be counted, and nothing but
signing infos is changed by it (`Ledger.recordVotes_of_readable`).
-/

namespace TestChain

namespace Ledger

/-- What is stored in the place of a signing info can be read as one. -/
def Readable (s : Store) : Prop :=
  ∀ a, ∃ i, signingInfo? a s = .ok i

/-- The key is not that of a signing info. -/
def Unsigned (k : Bytes) : Prop :=
  signingInfoLead.isPrefixOf k = false

/-- A key that begins like another kind of keys is not that of a signing info. -/
theorem unsigned_of_begins {lead k : Bytes} (hlen : signingInfoLead.length = lead.length)
    (hne : signingInfoLead ≠ lead) (hk : lead.isPrefixOf k = true) : Unsigned k :=
  isPrefixOf_of_begins hlen hne (List.isPrefixOf_iff_prefix.1 hk)

/-- The keys of validators are not those of signing infos. -/
theorem unsigned_validator {k : Bytes} (hk : validatorLead.isPrefixOf k = true) : Unsigned k :=
  unsigned_of_begins (by decide) (by decide) hk

/-- The keys of balances and of accounts are not those of signing infos. -/
theorem covers_unsigned : Covers Unsigned where
  balances _ hk := unsigned_of_begins (by decide) (by decide) hk
  accounts _ hk := unsigned_of_begins (by decide) (by decide) hk

/-- The key of a signing info is one. -/
theorem not_unsigned_signingInfoKey (a : ConsensusAddress) : ¬Unsigned (signingInfoKey a) := by
  unfold Unsigned
  rw [List.isPrefixOf_iff_prefix.2 (signingInfoKey_begins a)]
  exact Bool.noConfusion

/-- Stores that agree but for signing infos have the same supply, balances and validators. -/
theorem SameSums.of_agree {s t : Store} (same : s.AgreeOn Unsigned t) : SameSums s t where
  supply := supply_agree same (show signingInfoLead.isPrefixOf supplyKey = false by decide)
  balances := same.scan covers_unsigned.balances
  validators := same.scan fun _ hk => unsigned_validator hk

/-! ## Signing infos can be read -/

variable {s : Store}

/-- Where the quiet keys agree the signing infos are the same. -/
theorem signingInfo?_quiet {t : Store} (same : s.AgreeOn Quiet t) (a : ConsensusAddress) :
    signingInfo? a t = signingInfo? a s :=
  value?_agree same SigningInfo.codec
    (quiet_signingInfo (List.isPrefixOf_iff_prefix.2 (signingInfoKey_begins a)))

/-- A signing info that is written is read back. -/
theorem signingInfo?_write (a : ConsensusAddress) (i : SigningInfo) (s : Store) :
    signingInfo? a (s.write SigningInfo.codec (signingInfoKey a) i) = .ok (some i) := by
  unfold signingInfo? value?
  rw [(s.read?_write SigningInfo.codec _ (signingInfoKey a) i.faithful_codec (by decide)).1]
  rfl

/-- Where the quiet keys agree the signing infos can be read alike. -/
theorem Readable.of_agree (h : Readable s) {t : Store} (same : s.AgreeOn Quiet t) :
    Readable t := by
  intro a
  rw [signingInfo?_quiet same]
  exact h a

/-- A signing info that is written can be read. -/
theorem Readable.write (h : Readable s) (a : ConsensusAddress) (i : SigningInfo) :
    Readable (s.write SigningInfo.codec (signingInfoKey a) i) := by
  intro b
  unfold signingInfo? value?
  obtain ⟨own, other⟩ := s.read?_write SigningInfo.codec (signingInfoKey a) (signingInfoKey b)
    i.faithful_codec (by decide)
  by_cases hkey : signingInfoKey b = signingInfoKey a
  · rw [hkey, own]
    exact ⟨some i, rfl⟩
  · rw [other hkey]
    exact h b

/-! ## Votes -/

/-- Where signing infos can be read, votes can be counted, and nothing but signing infos changes. -/
theorem recordVotes_of_readable (votes : List Vote) (h : Readable s) :
    ∃ t, recordVotes votes s = .ok () t ∧ Readable t ∧ s.AgreeOn Unsigned t := by
  induction votes generalizing s with
  | nil => exact ⟨s, rfl, h, .refl s⟩
  | cons v rest ih =>
    obtain ⟨i, hi⟩ := h v.validator
    obtain ⟨t, counted, readable, same⟩ : ∃ t, recordVote v s = .ok () t ∧ Readable t ∧
        s.AgreeOn Unsigned t := by
      unfold recordVote
      rw [bind_of_ok (ask_of_ok hi)]
      cases i with
      | none => exact ⟨s, rfl, h, .refl s⟩
      | some i =>
        exact ⟨_, rfl, h.write _ _, .write_of_not s _ _ (not_unsigned_signingInfoKey _)⟩
    obtain ⟨u, others, readable, same'⟩ := ih readable
    exact ⟨u, (bind_of_ok counted _).trans others, readable, same.trans same'⟩

end Ledger

end TestChain
