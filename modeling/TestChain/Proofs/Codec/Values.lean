import TestChain.Genesis.Bank
import TestChain.Genesis.Auth
import TestChain.Staking
import TestChain.Store
import TestChain.Proofs.Codec.Record
import TestChain.Proofs.Text.Digits
import TestChain.Proofs.Text.Utf8

/-!
# Stored values lose nothing

The codecs of the values that a ledger stores are faithful to all values: addresses, keys and
decimals because their texts are read back (`Address.parse_text`, `PublicKey.parse_text`,
`Decimal.parse_text`), and the records made from them. So what is written to a store is read back
(`Store.decode_text`, `Store.read?_write`).
-/

namespace TestChain

/-- A byte string of a fixed size has its size. -/
theorem Bytes.toVector?_toList {n : Nat} (v : Vector UInt8 n) :
    Bytes.toVector? n v.toList = some v := by
  unfold Bytes.toVector?
  rw [dif_pos v.length_toList]
  rfl

/-! ## Texts -/

/-- An address is read back from its text. -/
theorem Address.parse_text {kind : AddressKind} (a : Address kind) :
    Address.parse kind a.text = .ok a := by
  -- The text begins with the lead of the kind and a one, and what follows is the bytes.
  have body : Address.body? kind a.text = some (Hex.encode a.bytes.toList) := by
    have front : (kind.lead.toList ++ ['1']).isPrefixOf a.text.toList = true := by
      rw [List.isPrefixOf_iff_prefix]
      exact ⟨(Hex.encode a.bytes.toList).toList, by simp [Address.text]⟩
    unfold Address.body?
    dsimp only
    rw [if_pos front]
    have text : a.text.toList =
        (kind.lead.toList ++ ['1']) ++ (Hex.encode a.bytes.toList).toList := by
      simp [Address.text]
    rw [text, List.drop_left, String.ofList_toList]
  unfold Address.parse Address.parseBody
  rw [body]
  dsimp only
  rw [Hex.decode_encode]
  dsimp only
  rw [Bytes.toVector?_toList]
  rfl

/-- A public key is read back from its text. -/
theorem PublicKey.parse_text (k : PublicKey) : PublicKey.parse k.text = .ok k := by
  unfold PublicKey.parse PublicKey.text
  rw [Hex.decode_encode]
  dsimp only
  rw [PublicKey.ofBytes, Bytes.toVector?_toList]

namespace Decimal

/-- A text is divided at its first point. -/
theorem splitPoint_append {whole places : List Char} (h : '.' ∉ whole) :
    splitPoint (whole ++ '.' :: places) = (whole, places) := by
  induction whole with
  | nil => rfl
  | cons c whole ih =>
    obtain ⟨hc, hwhole⟩ := not_or.1 (mt List.mem_cons.2 h)
    rw [List.cons_append, splitPoint, if_neg (Ne.symm hc), ih hwhole]

/-- A decimal is read back from its text. -/
theorem parse_text (d : Decimal) : parse d.text = .ok d := by
  have hunit : decimalUnit = 10 ^ 18 := by decide
  have hwhole : d.atomics / decimalUnit < decimalBound :=
    Nat.lt_of_le_of_lt (Nat.div_le_self _ _) d.atomics_lt
  have hplaces : d.atomics % decimalUnit < 10 ^ 18 := by
    rw [hunit]
    exact Nat.mod_lt _ (by decide)
  -- The whole part has digits alone, so the text is divided at the point that was written.
  have point : '.' ∉ Text.natDigits 10 (d.atomics / decimalUnit) := fun h => by
    have := Text.isDigit_of_mem_natDigits h
    cases this
  -- All 18 places are written, so no zeros have to be filled in on the right.
  have size : (Text.padded 10 18 (d.atomics % decimalUnit)).length = 18 :=
    Text.length_padded (by decide) (by decide) hplaces
  have places : placesValue? (Text.padded 10 18 (d.atomics % decimalUnit)) =
      some (d.atomics % decimalUnit) := by
    have nonempty : (Text.padded 10 18 (d.atomics % decimalUnit)).isEmpty = false := by
      rw [List.isEmpty_eq_false_iff, ← List.length_pos_iff, size]
      decide
    unfold placesValue?
    rw [nonempty, if_neg (by decide),
      Text.readBounded?_padded 18 (Nat.lt_trans hplaces (by decide)), size]
    exact congrArg some (Nat.mul_one _)
  have whole : (Text.natDigits 10 (d.atomics / decimalUnit)).isEmpty = false :=
    List.isEmpty_eq_false_iff.2 Nat.toDigits_ne_nil
  have atomics : atomics? d.text.toList = some d.atomics := by
    unfold atomics? text
    rw [String.toList_ofList, splitPoint_append point]
    dsimp only
    rw [whole, size, if_neg (by decide), Text.readBounded?_natDigits hwhole, places]
    dsimp only
    rw [Nat.div_add_mod']
  unfold parse
  rw [atomics, Option.bind_some, ofAtomics?, dif_pos d.atomics_lt]

end Decimal

/-! ## Codecs -/

variable {d : Nat}

/-- Addresses are decoded. -/
theorem Address.faithful_codec {kind : AddressKind} (a : Address kind) :
    (Address.codec kind).Faithful d a :=
  Codec.faithful_ofParser (by rw [Address.parse_text]; rfl)

/-- Public keys are decoded. -/
theorem PublicKey.faithful_codec (k : PublicKey) : PublicKey.codec.Faithful d k :=
  Codec.faithful_ofParser (by rw [PublicKey.parse_text]; rfl)

/-- Decimals are decoded. -/
theorem Decimal.faithful_codec (x : Decimal) : Decimal.codec.Faithful d x :=
  Codec.faithful_ofParser (by rw [Decimal.parse_text]; rfl)

/-- Statuses are decoded. -/
theorem BondStatus.faithful_codec (s : BondStatus) : BondStatus.codec.Faithful d s :=
  Codec.faithful_enumeration (by cases s <;> rfl)

open Codec Fields

/-- Coins are decoded. -/
theorem Coin.faithful_codec (c : Coin) : Coin.codec.Faithful 1 c :=
  faithful_record <| .map (.and (faithful_required (faithful_string _))
    (faithful_required (faithful_uint64 _)) (by decide)) rfl

/-- Sets of coins are decoded, whatever their order. -/
theorem Coins.faithful_codec (s : Coins) : Coins.codec.Faithful 2 s :=
  .map (.list fun c _ => c.faithful_codec) rfl

/-- Balances are decoded. -/
theorem Balance.faithful_codec (b : Balance) : Balance.codec.Faithful 3 b :=
  faithful_record <| .map (.and (faithful_required b.address.faithful_codec)
    (faithful_required b.coins.faithful_codec) (by decide)) rfl

/-- Accounts are decoded. -/
theorem Account.faithful_codec (a : Account) : Account.codec.Faithful 1 a := by
  have key : PublicKey.codec.option.Faithful 0 a.publicKey := by
    cases a.publicKey with
    | none => exact faithful_option_none _
    | some k => exact k.faithful_codec.option fun h => (nomatch h)
  exact faithful_record <| .map (.and (faithful_required a.address.faithful_codec)
    (.and (faithful_defaulted key) (.and (faithful_required (faithful_uint64 _))
      (faithful_required (faithful_uint64 _)) (by decide)) (by decide)) (by decide)) rfl

/-- Rates are decoded. -/
theorem CommissionRates.faithful_codec (r : CommissionRates) : CommissionRates.codec.Faithful 1 r :=
  faithful_record <| .map (.and (faithful_required r.rate.faithful_codec)
    (.and (faithful_required r.maxRate.faithful_codec)
      (faithful_required r.maxChangeRate.faithful_codec) (by decide)) (by decide)) rfl

/-- Commissions are decoded. -/
theorem Commission.faithful_codec (c : Commission) : Commission.codec.Faithful 2 c :=
  faithful_record <| .map (.and (faithful_required c.rates.faithful_codec)
    (faithful_required (faithful_uint64 _)) (by decide)) rfl

/-- Validators are decoded. -/
theorem Validator.faithful_codec (v : Validator) : Validator.codec.Faithful 3 v :=
  faithful_record <| .map (.and (faithful_required v.operatorAddress.faithful_codec)
    (.and (faithful_required v.consensusKey.faithful_codec)
    (.and (faithful_required (faithful_bool _))
    (.and (faithful_required v.status.faithful_codec)
    (.and (faithful_required (faithful_uint64 _))
    (.and (faithful_required v.delegatorShares.faithful_codec)
    (.and (faithful_required (faithful_uint64 _))
    (.and (faithful_required (faithful_uint64 _))
    (.and (faithful_required v.commission.faithful_codec)
      (faithful_required (faithful_uint64 _)) (by decide)) (by decide)) (by decide)) (by decide))
      (by decide)) (by decide)) (by decide)) (by decide)) (by decide)) rfl

/-- Delegations are decoded. -/
theorem Delegation.faithful_codec (x : Delegation) : Delegation.codec.Faithful 1 x :=
  faithful_record <| .map (.and (faithful_required x.delegator.faithful_codec)
    (.and (faithful_required x.validator.faithful_codec)
      (faithful_required x.shares.faithful_codec) (by decide)) (by decide)) rfl

/-- Signing infos are decoded. -/
theorem SigningInfo.faithful_codec (i : SigningInfo) : SigningInfo.codec.Faithful 1 i :=
  faithful_record <| .map (.and (faithful_required i.address.faithful_codec)
    (.and (faithful_required (faithful_uint64 _))
    (.and (faithful_required (faithful_uint64 _))
    (.and (faithful_required (faithful_uint64 _))
    (.and (faithful_required (faithful_bool _))
      (faithful_required (faithful_uint64 _)) (by decide)) (by decide)) (by decide)) (by decide))
      (by decide)) rfl

/-! ## Stores -/

namespace Store

variable {α : Type} {c : Codec α} {a : α}

/-- What is written is decoded. -/
theorem decode_text (h : c.Faithful d a) (hd : d ≤ 127) :
    decode c (Bytes.ofString (c.text a)) = .ok a := by
  unfold decode
  rw [Text.ofUtf8_ofString, Codec.text, Json.compact, String.toList_ofList]
  exact h.ofChars hd

/-- A written value is read under its key, and other keys are read as before. -/
theorem read?_write {β : Type} (s : Store) (b : Codec β) (k j : Bytes) (h : c.Faithful d a)
    (hd : d ≤ 127) :
    (s.write c k a).read? c k = .ok (some a) ∧
      (j ≠ k → (s.write c k a).read? b j = s.read? b j) := by
  refine ⟨?_, fun hj => ?_⟩
  · unfold read? write
    rw [get?_set, if_pos rfl]
    dsimp only
    rw [decode_text h hd]
    rfl
  · unfold read? write
    rw [get?_set, if_neg (Ne.symm hj)]

end Store

end TestChain
