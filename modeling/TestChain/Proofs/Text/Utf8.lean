import Mathlib.Tactic.SplitIfs
import TestChain.Bytes.Hex
import TestChain.Text.Utf8

/-!
# Texts as bytes

A text is read back from its UTF-8 encoding (`ofUtf8_ofString`), and a byte string from its
hexadecimal digits (`Hex.decode_encode`). The order of texts is that of their encodings, byte by
byte (`Bytes.ofString_lt_iff`).
-/

namespace TestChain

/-- The encoding of a text is that of its characters in order. -/
theorem Bytes.ofString_ofList (cs : List Char) :
    Bytes.ofString (String.ofList cs) = cs.flatMap String.utf8EncodeChar := by
  unfold Bytes.ofString
  rw [String.toUTF8_eq_toByteArray, String.toByteArray_ofList, List.utf8Encode,
    List.toList_data_toByteArray]

/-- A text is told from its encoding. -/
theorem Bytes.ofString_inj {s t : String} (h : Bytes.ofString s = Bytes.ofString t) : s = t :=
  String.toByteArray_inj.1 (ByteArray.ext (Array.toList_inj.1 h))

/-- A text takes at most four bytes a character. -/
theorem Bytes.length_ofString_ofList (cs : List Char) :
    (Bytes.ofString (String.ofList cs)).length ≤ 4 * cs.length := by
  rw [ofString_ofList]
  induction cs with
  | nil => exact Nat.le_refl 0
  | cons c cs ih =>
    have first := c.utf8Size_le_four
    rw [List.flatMap_cons, List.length_append, String.length_utf8EncodeChar, List.length_cons]
    omega

/-- A text of ASCII characters is encoded with one byte a character. -/
theorem Bytes.ofString_ascii {cs : List Char} (h : ∀ c ∈ cs, c.toNat < 128) :
    Bytes.ofString (String.ofList cs) = cs.map fun c => c.toNat.toUInt8 := by
  rw [ofString_ofList]
  induction cs with
  | nil => rfl
  | cons c cs ih =>
    have hc : c.toNat < 128 := h c List.mem_cons_self
    have one : String.utf8EncodeChar c = [c.toNat.toUInt8] := by
      refine String.utf8EncodeChar_eq_singleton ?_
      unfold Char.utf8Size
      rw [if_pos]
      exact Nat.le_of_lt_succ hc
    rw [List.flatMap_cons, one, ih fun d hd => h d (List.mem_cons_of_mem _ hd)]
    rfl

/-! ## The order of texts -/

/-- Bytes are in the order of their numbers. -/
theorem Bytes.ofNat_lt_iff {m n : Nat} (hm : m < 256) (hn : n < 256) :
    UInt8.ofNat m < UInt8.ofNat n ↔ m < n := by
  rw [UInt8.lt_iff_toNat_lt, UInt8.toNat_ofNat', UInt8.toNat_ofNat']
  omega

/-- Bytes of different numbers differ. -/
theorem Bytes.ofNat_eq_iff {m n : Nat} (hm : m < 256) (hn : n < 256) :
    UInt8.ofNat m = UInt8.ofNat n ↔ m = n := by
  rw [← UInt8.toNat_inj, UInt8.toNat_ofNat', UInt8.toNat_ofNat']
  omega

/-- The encoding of a character comes before that of a greater one, whatever follows them. -/
theorem Bytes.utf8EncodeChar_append_lt {c d : Char} (h : c < d) (as bs : Bytes) :
    String.utf8EncodeChar c ++ as < String.utf8EncodeChar d ++ bs := by
  have less : c.val.toNat < d.val.toNat := UInt32.lt_iff_toNat_lt.1 h
  have small : d.val.toNat < 1114112 := by
    have valid : d.val.toNat < 55296 ∨ 57343 < d.val.toNat ∧ d.val.toNat < 1114112 := d.valid
    omega
  -- The bytes behind the first are digits to the base of 64.
  have digits (n : Nat) : n / 4096 = n / 64 / 64 ∧ n / 262144 = n / 64 / 64 / 64 := by omega
  unfold String.utf8EncodeChar
  generalize c.val.toNat = m at less
  generalize d.val.toNat = n at less small
  dsimp only
  -- Of encodings of different lengths the shorter one has the smaller first byte, and those of one
  -- length are compared digit by digit.
  split_ifs <;>
    simp (disch := omega) only [List.cons_append, List.nil_append, List.cons_lt_cons_iff,
      ofNat_lt_iff, ofNat_eq_iff, digits] <;>
    omega

/-- The encodings of characters are in the order of the characters. -/
theorem Bytes.flatMap_utf8EncodeChar_lt {cs ds : List Char} (h : cs < ds) :
    cs.flatMap String.utf8EncodeChar < ds.flatMap String.utf8EncodeChar := by
  induction h with
  | nil =>
    rename_i d ds
    rw [List.flatMap_nil, List.flatMap_cons]
    cases hd : String.utf8EncodeChar d with
    | nil => exact absurd hd String.utf8EncodeChar_ne_nil
    | cons byte rest => exact List.nil_lt_cons _ _
  | rel hlt => exact utf8EncodeChar_append_lt hlt _ _
  | cons _ ih => exact List.append_left_lt ih

/-- Texts are in the order of their encodings, byte by byte. -/
theorem Bytes.ofString_lt_iff {s t : String} : ofString s < ofString t ↔ s < t := by
  have encoded (s : String) : ofString s = s.toList.flatMap String.utf8EncodeChar := by
    rw [← ofString_ofList, String.ofList_toList]
  have keeps {s t : String} (h : s < t) : ofString s < ofString t := by
    rw [encoded, encoded]
    exact flatMap_utf8EncodeChar_lt h
  refine ⟨fun h => Decidable.byContradiction fun hnot => ?_, keeps⟩
  -- Of two texts that are not in order this way, the other one comes first, or they are the same.
  by_cases same : s = t
  · exact List.lt_irrefl _ (same ▸ h)
  · exact List.lt_asymm h (keeps (Decidable.byContradiction fun h' =>
      same (Std.Trichotomous.trichotomous s t hnot h')))

/-! ## Reading back -/

/-- A text is read back from its encoding. -/
theorem Text.ofUtf8_ofString (s : String) : Text.ofUtf8 (Bytes.ofString s).pack = s.toList := by
  have packed : (Bytes.ofString s).pack = s.toByteArray := rfl
  have read : String.fromUTF8? s.toByteArray = some s := by
    unfold String.fromUTF8?
    rw [dif_pos s.isValidUTF8]
    rfl
  unfold Text.ofUtf8
  rw [packed, read]

/-- A text is read back from its packed encoding. -/
theorem Text.ofUtf8_toUTF8 (s : String) : Text.ofUtf8 s.toUTF8 = s.toList :=
  ofUtf8_ofString s

namespace Hex

/-- A digit has the value that it was written for, and it is an ASCII character. -/
theorem digitValue?_digit {n : Nat} (h : n < 16) :
    (digit n).toNat < 128 ∧ digitValue? (digit n).toNat.toUInt8 = some n := by
  -- There are sixteen digits, and all of them are looked at.
  have all : ∀ n : Fin 16,
      (digit n).toNat < 128 ∧ digitValue? (digit n).toNat.toUInt8 = some n.val := by
    decide
  exact all ⟨n, h⟩

/-- Both digits of a byte are digits of numbers below sixteen. -/
theorem halves_lt (b : UInt8) : b.toNat / 16 < 16 ∧ b.toNat % 16 < 16 := by
  have := b.toNat_lt
  omega

/-- The characters that a byte string is written with are ASCII characters. -/
theorem ascii_of_mem_digits {b : Bytes} {c : Char} (h : c ∈ digits b) : c.toNat < 128 := by
  obtain ⟨byte, -, hc⟩ := List.mem_flatMap.1 h
  obtain ⟨high, low⟩ := halves_lt byte
  rcases List.mem_cons.1 hc with rfl | hc
  · exact (digitValue?_digit high).1
  · rw [List.mem_singleton.1 hc]
    exact (digitValue?_digit low).1

/-- There are two digits for every byte. -/
theorem length_digits (b : Bytes) : (digits b).length = 2 * b.length := by
  induction b with
  | nil => rfl
  | cons byte b ih =>
    unfold digits at ih ⊢
    rw [List.flatMap_cons, List.length_append, ih, List.length_cons]
    simp only [List.length_cons, List.length_nil]
    omega

/-- Pairs of digits are read back as the bytes they were written for. -/
theorem decodePairs_digits (b : Bytes) (index : Nat) :
    decodePairs index ((digits b).map fun c => c.toNat.toUInt8) = .ok b := by
  induction b generalizing index with
  | nil => rfl
  | cons byte b ih =>
    obtain ⟨high, low⟩ := halves_lt byte
    have whole : (16 * (byte.toNat / 16) + byte.toNat % 16).toUInt8 = byte := by
      rw [Nat.div_add_mod]
      exact UInt8.ofNat_toNat
    unfold digits at ih ⊢
    rw [List.flatMap_cons, List.map_append, List.map_cons, List.map_cons, List.map_nil,
      List.cons_append, List.cons_append, List.nil_append, decodePairs, digitAt,
      (digitValue?_digit high).2, digitAt, (digitValue?_digit low).2, ih (index + 2)]
    exact congrArg (fun byte => Except.ok (byte :: b)) whole

/-- A byte string is read back from its digits. -/
theorem decode_encode (b : Bytes) : decode (encode b) = .ok b := by
  have bytes : Bytes.ofString (encode b) = (digits b).map fun c => c.toNat.toUInt8 :=
    Bytes.ofString_ascii fun _ h => ascii_of_mem_digits h
  unfold decode
  rw [bytes]
  dsimp only
  rw [List.length_map, length_digits, Nat.mul_mod_right, if_neg (by decide)]
  exact decodePairs_digits b 0

end Hex

end TestChain
