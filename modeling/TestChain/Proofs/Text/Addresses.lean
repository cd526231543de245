import TestChain.Proofs.Codec.Values
import TestChain.Proofs.Outcome

/-!
# The texts of addresses

A text is read as a byte string exactly if it consists of hexadecimal digits of either case, two for
each byte, and written again it has them in lower case (`Hex.decode_ok_iff`). Reading looks at the
bytes of the text, but a character outside of ASCII has a byte that is no digit, so nothing else is
accepted. Therefore an address has one text for each choice of the cases of its forty digits and no
other, and none of these is the text of an address of another kind (`Address.texts_canonical`).
-/

namespace TestChain

/-! ## Characters outside of ASCII -/

/-- The last byte of a character outside of ASCII is no ASCII character. -/
theorem Bytes.exists_mem_utf8EncodeChar {c : Char} (h : 128 ≤ c.toNat) :
    ∃ byte ∈ String.utf8EncodeChar c, 128 ≤ byte.toNat := by
  have last : 128 ≤ (UInt8.ofNat (c.val.toNat % 64 + 128)).toNat := by
    rw [UInt8.toNat_ofNat']
    omega
  have self : c.toNat = c.val.toNat := rfl
  refine ⟨_, ?_, last⟩
  unfold String.utf8EncodeChar
  dsimp only
  split
  · omega
  · split
    · simp
    · split
      · simp
      · simp

/-- A text whose encoding has bytes of ASCII alone is one of ASCII characters. -/
theorem Bytes.ascii_of_ofString {cs : List Char}
    (h : ∀ byte ∈ ofString (String.ofList cs), byte.toNat < 128) : ∀ c ∈ cs, c.toNat < 128 := by
  intro c hc
  rw [ofString_ofList] at h
  refine Nat.lt_of_not_le fun large => ?_
  obtain ⟨byte, mem, high⟩ := exists_mem_utf8EncodeChar large
  have low := h byte (List.mem_flatMap.2 ⟨c, hc, mem⟩)
  omega

/-! ## Digits -/

namespace Hex

/-- A hexadecimal digit of either case. -/
def IsDigit (c : Char) : Prop :=
  ('0' ≤ c ∧ c ≤ '9') ∨ ('a' ≤ c ∧ c ≤ 'f') ∨ ('A' ≤ c ∧ c ≤ 'F')

instance : DecidablePred IsDigit := fun _ => inferInstanceAs (Decidable (_ ∨ _))

/-- The value of a character that is a digit. -/
def valueOf? (c : Char) : Option Nat :=
  digitValue? c.toNat.toUInt8

/-- The ASCII characters that have a value are the digits. A digit in lower case is the one that is
written for its value. -/
theorem valueOf?_of_ascii {c : Char} (h : c.toNat < 128) :
    ((valueOf? c).isSome ↔ IsDigit c) ∧ ∀ n ∈ valueOf? c, n < 16 ∧ digit n = c.toLower := by
  -- There are 128 characters, and all of them are looked at.
  have all : ∀ k : Fin 128, ((valueOf? (Char.ofNat k)).isSome ↔ IsDigit (Char.ofNat k)) ∧
      ∀ n ∈ valueOf? (Char.ofNat k), n < 16 ∧ digit n = (Char.ofNat k).toLower := by
    decide
  have this := all ⟨c.toNat, h⟩
  rwa [Char.ofNat_toNat] at this

/-- Digits are ASCII characters. -/
theorem IsDigit.ascii {c : Char} (h : IsDigit c) : c.toNat < 128 := by
  have below : ∀ {d : Char}, d.toNat < 128 → c ≤ d → c.toNat < 128 :=
    fun hd hc => Nat.lt_of_le_of_lt (UInt32.le_iff_toNat_le.1 hc) hd
  rcases h with ⟨-, h⟩ | ⟨-, h⟩ | ⟨-, h⟩
  · exact below (by decide) h
  · exact below (by decide) h
  · exact below (by decide) h

/-- A byte with a value is an ASCII character, and the value is that of one digit. -/
theorem lt_of_digitValue? {byte : UInt8} {n : Nat} (h : digitValue? byte = some n) :
    byte.toNat < 128 ∧ n < 16 := by
  unfold digitValue? at h
  simp only [Bool.and_eq_true, decide_eq_true_eq] at h
  split at h
  · cases h
    omega
  · split at h
    · cases h
      omega
    · split at h
      · cases h
        omega
      · cases h

/-- A digit has the value of the same digit in lower case. -/
theorem valueOf?_toLower {c : Char} (h : IsDigit c) : valueOf? c.toLower = valueOf? c := by
  obtain ⟨isSome, value⟩ := valueOf?_of_ascii h.ascii
  obtain ⟨n, hn⟩ := Option.isSome_iff_exists.1 (isSome.2 h)
  obtain ⟨small, lower⟩ := value n hn
  rw [hn, ← lower]
  exact (digitValue?_digit small).2

/-- An ASCII character has a value exactly if it is a digit and, in lower case, the one that is
written for the value. -/
theorem valueOf?_eq_some_iff {c : Char} {n : Nat} (h : c.toNat < 128) (small : n < 16) :
    valueOf? c = some n ↔ IsDigit c ∧ c.toLower = digit n := by
  obtain ⟨isSome, value⟩ := valueOf?_of_ascii h
  constructor
  · intro hn
    exact ⟨isSome.1 (Option.isSome_of_eq_some hn), (value n hn).2.symm⟩
  · rintro ⟨hc, lower⟩
    rw [← valueOf?_toLower hc, lower]
    exact (digitValue?_digit small).2

/-- The values of the digits with which a byte string is written. -/
def halves (b : Bytes) : List Nat :=
  b.flatMap fun byte => [byte.toNat / 16, byte.toNat % 16]

/-- The digits of a byte string are those of its halves. -/
theorem digits_eq (b : Bytes) : digits b = (halves b).map digit := by
  unfold digits halves
  rw [List.map_flatMap]
  rfl

/-- All halves are below sixteen. -/
theorem lt_of_mem_halves {b : Bytes} {n : Nat} (h : n ∈ halves b) : n < 16 := by
  obtain ⟨byte, -, hn⟩ := List.mem_flatMap.1 h
  obtain ⟨high, low⟩ := halves_lt byte
  rcases List.mem_cons.1 hn with rfl | hn
  · exact high
  · rw [List.mem_singleton.1 hn]
    exact low

/-- Two digits are read as the byte of which they are the halves. -/
theorem byte_eq_iff {h l : Nat} (hh : h < 16) (hl : l < 16) (byte : UInt8) :
    (16 * h + l).toUInt8 = byte ↔ h = byte.toNat / 16 ∧ l = byte.toNat % 16 := by
  have size := byte.toNat_lt
  have value : (16 * h + l).toUInt8.toNat = 16 * h + l := by
    have small : 16 * h + l < 256 := by omega
    exact Nat.mod_eq_of_lt small
  rw [← UInt8.toNat_inj, value]
  omega

/-- The digit at a place is read exactly if it has a value. -/
theorem digitAt_ok_iff {byte : UInt8} {index n : Nat} :
    digitAt byte index = .ok n ↔ digitValue? byte = some n := by
  unfold digitAt
  cases digitValue? byte with
  | none => exact iff_of_false (fun h => (nomatch h)) fun h => (nomatch h)
  | some m => rw [Except.ok.injEq, Option.some.injEq]

/-- Pairs of digits are read as the bytes of which they have the values of the halves. -/
theorem decodePairs_ok_iff {bytes : Bytes} (even : bytes.length % 2 = 0) {index : Nat} {b : Bytes} :
    decodePairs index bytes = .ok b ↔ bytes.map digitValue? = (halves b).map some := by
  induction index, bytes using decodePairs.induct generalizing b with
  | case1 index high low rest ih =>
    have even' : rest.length % 2 = 0 := by
      rw [List.length_cons, List.length_cons] at even
      omega
    have unfolded : decodePairs index (high :: low :: rest) = .ok b ↔
        ∃ h, digitValue? high = some h ∧ ∃ l, digitValue? low = some l ∧
          ∃ b', rest.map digitValue? = (halves b').map some ∧ (16 * h + l).toUInt8 :: b' = b := by
      simp only [decodePairs, except_bind_ok_iff, digitAt_ok_iff, ih even', pure, Except.pure,
        Except.ok.injEq]
    rw [unfolded, List.map_cons, List.map_cons]
    constructor
    · rintro ⟨h, hh, l, hl, b', hb', rfl⟩
      obtain ⟨high_eq, low_eq⟩ := (byte_eq_iff (lt_of_digitValue? hh).2 (lt_of_digitValue? hl).2
        (16 * h + l).toUInt8).1 rfl
      rw [hh, hl, hb', congrArg some high_eq, congrArg some low_eq]
      rfl
    · intro same
      cases b with
      | nil => cases same
      | cons byte b =>
        obtain ⟨hh, same⟩ := List.cons.inj same
        obtain ⟨hl, same⟩ := List.cons.inj same
        obtain ⟨high_lt, low_lt⟩ := halves_lt byte
        refine ⟨_, hh, _, hl, b, same, ?_⟩
        rw [(byte_eq_iff high_lt low_lt byte).2 ⟨rfl, rfl⟩]
  | case2 bytes index other =>
    have empty : bytes = [] := by
      cases bytes with
      | nil => rfl
      | cons high rest =>
        cases rest with
        | nil => cases even
        | cons low rest => exact absurd rfl (other high low rest)
    rw [empty]
    show Except.ok [] = Except.ok b ↔ _
    cases b with
    | nil => exact iff_of_true rfl rfl
    | cons byte b =>
      constructor
      · intro read
        cases read
      · intro same
        cases same

/-- A text is read as the byte string of which its bytes have the values of the halves. -/
theorem decode_ok_iff_bytes {s : String} {b : Bytes} :
    decode s = .ok b ↔ (Bytes.ofString s).map digitValue? = (halves b).map some := by
  unfold decode
  dsimp only
  split
  · next odd =>
    refine iff_of_false (fun h => (nomatch h)) fun h => ?_
    have length := congrArg List.length h
    have twice : (halves b).length = 2 * b.length := by
      rw [← length_digits, digits_eq, List.length_map]
    rw [List.length_map, List.length_map, twice] at length
    omega
  · next even =>
    have even' : (Bytes.ofString s).length % 2 = 0 := by omega
    exact decodePairs_ok_iff even'

/-- ASCII characters have given values exactly if they are digits and, in lower case, those that are
written for the values. -/
theorem map_valueOf?_iff {cs : List Char} {ns : List Nat} (ascii : ∀ c ∈ cs, c.toNat < 128)
    (small : ∀ n ∈ ns, n < 16) :
    cs.map valueOf? = ns.map some ↔
      (∀ c ∈ cs, IsDigit c) ∧ cs.map Char.toLower = ns.map digit := by
  induction cs generalizing ns with
  | nil =>
    cases ns with
    | nil => exact iff_of_true rfl ⟨fun c hc => (nomatch hc), rfl⟩
    | cons n ns => exact iff_of_false (fun h => (nomatch h)) fun h => (nomatch h.2)
  | cons c cs ih =>
    cases ns with
    | nil => exact iff_of_false (fun h => (nomatch h)) fun h => (nomatch h.2)
    | cons n ns =>
      obtain ⟨hc, hcs⟩ := List.forall_mem_cons.1 ascii
      obtain ⟨hn, hns⟩ := List.forall_mem_cons.1 small
      simp only [List.map_cons, List.cons.injEq, List.forall_mem_cons, ih hcs hns,
        valueOf?_eq_some_iff hc hn]
      exact and_and_and_comm

/-- A text is read as a byte string exactly if it has digits alone and they are, in lower case,
those with which the byte string is written. -/
theorem decode_ok_iff {s : String} {b : Bytes} :
    decode s = .ok b ↔ (∀ c ∈ s.toList, IsDigit c) ∧ s.toList.map Char.toLower = digits b := by
  rw [decode_ok_iff_bytes]
  obtain ⟨cs, rfl⟩ : ∃ cs, s = String.ofList cs := ⟨s.toList, String.ofList_toList.symm⟩
  rw [String.toList_ofList]
  by_cases ascii : ∀ c ∈ cs, c.toNat < 128
  · rw [Bytes.ofString_ascii ascii, List.map_map, digits_eq]
    exact map_valueOf?_iff ascii fun n hn => lt_of_mem_halves hn
  · refine iff_of_false (fun same => ascii (Bytes.ascii_of_ofString fun byte mem => ?_))
      fun h => ascii fun c hc => (h.1 c hc).ascii
    have value : digitValue? byte ∈ (halves b).map some := same ▸ List.mem_map_of_mem mem
    obtain ⟨n, -, hn⟩ := List.mem_map.1 value
    exact (lt_of_digitValue? hn.symm).1

/-- A digit is written, in lower case, for some value. -/
theorem IsDigit.exists_value {c : Char} (h : IsDigit c) : ∃ n < 16, digit n = c.toLower := by
  obtain ⟨isSome, value⟩ := valueOf?_of_ascii h.ascii
  obtain ⟨n, hn⟩ := Option.isSome_iff_exists.1 (isSome.2 h)
  exact ⟨n, value n hn⟩

/-- An even number of digits are, in lower case, those with which some byte string is written. -/
theorem exists_digits : ∀ {cs : List Char}, (∀ c ∈ cs, IsDigit c) → cs.length % 2 = 0 →
    ∃ b, digits b = cs.map Char.toLower
  | [], _, _ => ⟨[], rfl⟩
  | [_], _, even => by cases even
  | high :: low :: rest, digit, even => by
    obtain ⟨hhigh, digit⟩ := List.forall_mem_cons.1 digit
    obtain ⟨hlow, digit⟩ := List.forall_mem_cons.1 digit
    have even' : rest.length % 2 = 0 := by
      rw [List.length_cons, List.length_cons] at even
      omega
    obtain ⟨b, hb⟩ := exists_digits digit even'
    obtain ⟨h, hh, high_eq⟩ := hhigh.exists_value
    obtain ⟨l, hl, low_eq⟩ := hlow.exists_value
    obtain ⟨upper, lower⟩ := (byte_eq_iff hh hl (16 * h + l).toUInt8).1 rfl
    refine ⟨(16 * h + l).toUInt8 :: b, ?_⟩
    rw [List.map_cons, List.map_cons, ← hb, ← high_eq, ← low_eq]
    unfold digits
    rw [List.flatMap_cons, ← upper, ← lower]
    rfl

end Hex

/-! ## Addresses -/

namespace Address

variable {kind : AddressKind} {s : String}

/-- The text has the words of a kind, a one and forty digits. -/
structure Spelled (kind : AddressKind) (s : String) (digits : List Char) : Prop where
  /-- The digits are behind the words and the one. -/
  text : s.toList = kind.lead.toList ++ '1' :: digits
  /-- There are forty. -/
  forty : digits.length = 40
  /-- They are digits, of either case. -/
  digit : ∀ c ∈ digits, Hex.IsDigit c

/-- What follows the words and the one in a text. -/
theorem body?_eq_some_iff {body : String} :
    body? kind s = some body ↔ s.toList = kind.lead.toList ++ '1' :: body.toList := by
  have append : kind.lead.toList ++ '1' :: body.toList =
      (kind.lead.toList ++ ['1']) ++ body.toList := by
    rw [List.append_assoc, List.singleton_append]
  rw [append]
  unfold body?
  dsimp only
  split
  · next front =>
    obtain ⟨rest, hrest⟩ := List.isPrefixOf_iff_prefix.1 front
    rw [← hrest, List.drop_left, Option.some.injEq, List.append_cancel_left_eq,
      ← String.toList_inj, String.toList_ofList]
  · next front =>
    refine iff_of_false (fun h => (nomatch h)) fun h => front ?_
    rw [h, List.isPrefixOf_iff_prefix]
    exact List.prefix_append _ _

/-- A text is read as the address whose bytes its digits are read as. -/
theorem parse_ok_iff_body {a : Address kind} :
    parse kind s = .ok a ↔
      ∃ body, body? kind s = some body ∧ Hex.decode body = .ok a.bytes.toList := by
  unfold parse
  rw [mapError_ok_iff]
  unfold parseBody
  cases body? kind s with
  | none => exact iff_of_false (fun h => (nomatch h)) fun ⟨_, h, _⟩ => (nomatch h)
  | some body =>
    simp only [Option.some.injEq, exists_eq_left']
    cases Hex.decode body with
    | error fault => exact iff_of_false (fun h => (nomatch h)) fun h => (nomatch h)
    | ok b =>
      dsimp only
      rw [Except.ok.injEq]
      constructor
      · intro h
        unfold Bytes.toVector? at h
        split at h
        · next v hv =>
          split at hv
          · cases hv
            cases h
            rfl
          · cases hv
        · cases h
      · rintro rfl
        rw [Bytes.toVector?_toList]

/-- The text of an address has its digits behind the words and the one. -/
theorem toList_text (a : Address kind) :
    a.text.toList = kind.lead.toList ++ '1' :: Hex.digits a.bytes.toList := by
  simp [text, Hex.encode]

/-- A text is read as an address exactly if it has the shape of one and the address is written with
the same digits in lower case. -/
theorem parse_ok_iff {a : Address kind} :
    parse kind s = .ok a ↔
      ∃ digits, Spelled kind s digits ∧ Hex.digits a.bytes.toList = digits.map Char.toLower := by
  have length : (Hex.digits a.bytes.toList).length = 40 := by
    rw [Hex.length_digits, a.bytes.length_toList]
  simp only [parse_ok_iff_body, body?_eq_some_iff, Hex.decode_ok_iff]
  constructor
  · rintro ⟨body, text, digit, lower⟩
    refine ⟨body.toList, ⟨text, ?_, digit⟩, lower.symm⟩
    rw [← lower, List.length_map] at length
    exact length
  · rintro ⟨digits, ⟨text, -, digit⟩, lower⟩
    refine ⟨String.ofList digits, ?_⟩
    rw [String.toList_ofList]
    exact ⟨text, digit, lower.symm⟩

/-- A text of the shape of an address is read as one. -/
theorem Spelled.exists_parse {digits : List Char} (h : Spelled kind s digits) :
    ∃ a : Address kind, parse kind s = .ok a := by
  obtain ⟨b, hb⟩ := Hex.exists_digits h.digit (by rw [h.forty])
  have length : b.length = 20 := by
    have twice := congrArg List.length hb
    rw [Hex.length_digits, List.length_map, h.forty] at twice
    omega
  exact ⟨⟨⟨b.toArray, by rw [List.size_toArray, length]⟩⟩, parse_ok_iff.2 ⟨digits, h, hb⟩⟩

/-- An address is written as addresses are. -/
theorem spelled_text (a : Address kind) : Spelled kind a.text (Hex.digits a.bytes.toList) := by
  obtain ⟨digits, shape, lower⟩ := parse_ok_iff.1 (parse_text a)
  have same : digits = Hex.digits a.bytes.toList := by
    have text := shape.text
    rw [toList_text, List.append_cancel_left_eq, List.cons.injEq] at text
    exact text.2.symm
  rw [← same]
  exact shape

/-- A text has the digits of an address at one place. -/
theorem Spelled.unique {v w : List Char} (hv : Spelled kind s v) (hw : Spelled kind s w) :
    v = w := by
  have same := hv.text.symm.trans hw.text
  rw [List.append_cancel_left_eq, List.cons.injEq] at same
  exact same.2

/-- An address is told from its digits. -/
theorem eq_iff_digits {a b : Address kind} :
    a = b ↔ Hex.digits a.bytes.toList = Hex.digits b.bytes.toList := by
  refine ⟨fun h => by rw [h], fun h => ?_⟩
  have text : a.text = b.text := by rw [← String.toList_inj, toList_text, toList_text, h]
  have same := (parse_text a).symm.trans (text ▸ parse_text b)
  exact Except.ok.inj same

/-- No kind's words and one begin those of another. -/
theorem eq_of_lead_begins {kind other : AddressKind}
    (h : kind.lead.toList ++ ['1'] <+: other.lead.toList ++ ['1']) : kind = other := by
  rw [← List.isPrefixOf_iff_prefix] at h
  revert h
  cases kind <;> cases other <;> decide

/-- No text has the shape of addresses of two kinds. -/
theorem Spelled.kind_eq {other : AddressKind} {v w : List Char} (hv : Spelled kind s v)
    (hw : Spelled other s w) : kind = other := by
  have begins : ∀ {kind : AddressKind} {v}, Spelled kind s v →
      kind.lead.toList ++ ['1'] <+: s.toList := fun {_ v} h =>
    ⟨v, by rw [h.text, List.append_assoc, List.singleton_append]⟩
  rcases List.prefix_or_prefix_of_prefix (begins hv) (begins hw) with h | h
  · exact eq_of_lead_begins h
  · exact (eq_of_lead_begins h).symm

/-- The texts of a kind's addresses are canonical and belong to that kind alone. Every address is
read back from its text. The texts that are read are those with the words of the kind, a one and
forty hexadecimal digits of either case, and the address that is read is written with the same
digits in lower case; so two of them stand for one address exactly if their digits agree but for the
case. No text is read as addresses of two kinds, although the words of accounts begin those of
all. -/
theorem texts_canonical (kind : AddressKind) :
    (∀ a : Address kind, parse kind a.text = .ok a) ∧
      (∀ s, (∃ a : Address kind, parse kind s = .ok a) ↔ ∃ digits, Spelled kind s digits) ∧
      (∀ s digits (a : Address kind), Spelled kind s digits → parse kind s = .ok a →
        Spelled kind a.text (digits.map Char.toLower)) ∧
      (∀ s t v w (a b : Address kind), Spelled kind s v → Spelled kind t w →
        parse kind s = .ok a → parse kind t = .ok b →
        (a = b ↔ v.map Char.toLower = w.map Char.toLower)) ∧
      AddressKind.account.lead.toList <+: kind.lead.toList ∧
      ∀ (other : AddressKind) s (a : Address kind) (b : Address other),
        parse kind s = .ok a → parse other s = .ok b → kind = other := by
  have lower : ∀ {s digits} {a : Address kind}, Spelled kind s digits → parse kind s = .ok a →
      Hex.digits a.bytes.toList = digits.map Char.toLower := fun shape read => by
    obtain ⟨digits, shape', lower⟩ := parse_ok_iff.1 read
    rw [shape.unique shape']
    exact lower
  refine ⟨parse_text, fun s => ⟨fun ⟨a, read⟩ => ?_, fun ⟨digits, shape⟩ => shape.exists_parse⟩,
    fun s digits a shape read => ?_, fun s t v w a b hv hw ha hb => ?_, ?_,
    fun other s a b ha hb => ?_⟩
  · obtain ⟨digits, shape, -⟩ := parse_ok_iff.1 read
    exact ⟨digits, shape⟩
  · rw [← lower shape read]
    exact spelled_text a
  · rw [eq_iff_digits, lower hv ha, lower hw hb]
  · rw [← List.isPrefixOf_iff_prefix]
    cases kind <;> decide
  · obtain ⟨v, hv, -⟩ := parse_ok_iff.1 ha
    obtain ⟨w, hw, -⟩ := parse_ok_iff.1 hb
    exact hv.kind_eq hw

/-- Forty digits in upper case and the same ones in lower case stand for one account, which is
written in lower case, and for no validator. -/
theorem exists_two_spellings :
    ∃ (upper lower : List Char) (a : AccountAddress),
      Spelled .account "blocksim1ABCDEF0123456789ABCDEF0123456789ABCDEF01" upper ∧
      Spelled .account "blocksim1abcdef0123456789abcdef0123456789abcdef01" lower ∧
      parse .account "blocksim1ABCDEF0123456789ABCDEF0123456789ABCDEF01" = .ok a ∧
      parse .account "blocksim1abcdef0123456789abcdef0123456789abcdef01" = .ok a ∧
      Spelled .account a.text lower ∧
      ∀ b, parse .validator "blocksim1ABCDEF0123456789ABCDEF0123456789ABCDEF01" ≠ .ok b := by
  obtain ⟨-, read, display, agree, -, apart⟩ := texts_canonical .account
  -- The digits are looked at one by one: deciding it for all characters goes through all there are.
  have checked : ∀ {cs : List Char}, cs.all (fun c => Hex.IsDigit c) = true →
      ∀ c ∈ cs, Hex.IsDigit c := fun h c hc => of_decide_eq_true (List.all_eq_true.1 h c hc)
  have upper : Spelled .account "blocksim1ABCDEF0123456789ABCDEF0123456789ABCDEF01"
      "ABCDEF0123456789ABCDEF0123456789ABCDEF01".toList :=
    ⟨by decide, by decide, checked (by decide)⟩
  have lower : Spelled .account "blocksim1abcdef0123456789abcdef0123456789abcdef01"
      "abcdef0123456789abcdef0123456789abcdef01".toList :=
    ⟨by decide, by decide, checked (by decide)⟩
  obtain ⟨a, ha⟩ := (read _).2 ⟨_, upper⟩
  obtain ⟨b, hb⟩ := (read _).2 ⟨_, lower⟩
  obtain rfl := (agree _ _ _ _ a b upper lower ha hb).2 (by decide)
  have text := display _ _ a upper ha
  exact ⟨_, _, a, upper, lower, ha, hb, text, fun b hb => nomatch apart .validator _ a b ha hb⟩

end Address

end TestChain
