import TestChain.Proofs.Codec.Spelling

/-!
# Codecs that lose nothing

A codec is faithful to a value (`Codec.Faithful`) if it writes the value tidily and decodes it from
every tree that spells what it wrote. So the value comes back from its text (`Faithful.ofText`) and
from its free value (`Faithful.ofJson`). The codecs of single values are faithful to all values,
those of lists and of values that may be absent to whatever their parts' codecs are faithful to.
-/

namespace TestChain

namespace Codec

/-- The codec writes the value with at most `d` containers nested in one another and decodes it from
every tree that spells what it wrote. -/
structure Faithful {α : Type} (c : Codec α) (d : Nat) (a : α) : Prop where
  /-- The value is written tidily. -/
  tidy : (c.encode a).Tidy d
  /-- The value is decoded from what was written. -/
  decode : ∀ n, (c.encode a).SpelledBy n → c.decode n = pure a

namespace Faithful

variable {α β : Type} {c : Codec α} {d : Nat} {a : α}

/-- A faithful codec is faithful with a higher limit of the depth. -/
theorem mono {e : Nat} (h : c.Faithful d a) (hde : d ≤ e) : c.Faithful e a :=
  ⟨h.tidy.mono hde, h.decode⟩

/-- A value is decoded from its text. -/
theorem ofChars (h : c.Faithful d a) (hd : d ≤ 127) :
    c.ofChars (c.encode a).compactChars = .ok a := by
  unfold Codec.ofChars
  rw [Json.readText_compactChars h.tidy.noFloat (Nat.le_trans h.tidy.depth_le hd)]
  dsimp only
  rw [h.decode _ (Json.spelledBy_ofText _)]
  rfl

/-- A value is decoded from the text that is written for it. -/
theorem ofText (h : c.Faithful d a) (hd : d ≤ 127) : c.ofText (c.text a) = .ok a := by
  unfold Codec.ofText Codec.text Json.compact
  rw [String.toList_ofList]
  exact h.ofChars hd

/-- A value is decoded from its free value. -/
theorem ofJson (h : c.Faithful d a) : c.ofJson (c.toJson a) = .ok a := by
  unfold Codec.ofJson Codec.toJson
  rw [h.decode _ (Json.spelledBy_ofJson _ h.tidy.distinct)]
  rfl

/-- The values of another type that go through a faithful codec are decoded. -/
theorem map {f : α → β} {g : β → α} {b : β} (h : c.Faithful d (g b)) (hfg : f (g b) = b) :
    (c.map f g).Faithful d b := by
  refine ⟨h.tidy, fun n hn => ?_⟩
  show f <$> c.decode n = pure b
  rw [h.decode n hn, map_pure, hfg]

/-- Values that may be absent are decoded, unless they are written as the absent value. -/
theorem option (h : c.Faithful d a) (hnull : c.encode a ≠ .null) :
    c.option.Faithful d (some a) := by
  refine ⟨h.tidy, fun n hn => ?_⟩
  have decoded := h.decode n hn
  have hn : (c.encode a).SpelledBy n := hn
  show (do
    let n ← n.reached
    if ← isAbsent n then return none else return some (← c.decode n) : Decoding (Option α)) = _
  -- What spells a value other than the absent one is no alias, no word and not the absent value.
  have settled : n.reached = pure n ∧ isAbsent n = pure false := by
    cases hj : c.encode a with
    | null => exact absurd hj hnull
    | bool b =>
      rw [hj, Json.SpelledBy] at hn
      rw [hn]
      exact ⟨rfl, rfl⟩
    | num x =>
      rw [hj, Json.SpelledBy] at hn
      rw [hn]
      exact ⟨rfl, rfl⟩
    | str s =>
      rw [hj, Json.SpelledBy] at hn
      rw [hn]
      exact ⟨rfl, rfl⟩
    | arr items =>
      rw [hj, Json.SpelledBy] at hn
      obtain ⟨ns, o, rfl, -⟩ := hn
      exact ⟨rfl, rfl⟩
    | obj members =>
      rw [hj, Json.SpelledBy] at hn
      obtain ⟨ns, o, rfl, -⟩ := hn
      exact ⟨rfl, rfl⟩
  rw [settled.1, pure_bind, settled.2, pure_bind, decoded]
  rfl

/-- Items that spell values that are decoded are decoded. -/
theorem decodeItems {as : List α} (h : ∀ a ∈ as, c.Faithful d a) {ns : List Node}
    (hns : Json.ItemsSpelledBy (as.map c.encode) ns) : c.decodeItems ns = pure as := by
  induction as generalizing ns with
  | nil =>
    rw [List.map_nil, Json.ItemsSpelledBy] at hns
    rw [hns]
    rfl
  | cons a rest ih =>
    rw [List.map_cons, Json.ItemsSpelledBy] at hns
    obtain ⟨n, after, rfl, hn, hafter⟩ := hns
    rw [Codec.decodeItems, (h a List.mem_cons_self).decode n hn, pure_bind,
      ih (fun b hb => h b (List.mem_cons_of_mem _ hb)) hafter, pure_bind]

/-- Lists of values that are decoded are decoded. -/
theorem list {as : List α} (h : ∀ a ∈ as, c.Faithful d a) : c.list.Faithful (d + 1) as := by
  refine ⟨Json.tidy_arr fun j hj => ?_, fun n hn => ?_⟩
  · obtain ⟨a, ha, rfl⟩ := List.mem_map.1 hj
    exact (h a ha).tidy
  · show c.decodeList n = pure as
    have hn : (Json.arr (as.map c.encode)).SpelledBy n := hn
    rw [Json.SpelledBy] at hn
    obtain ⟨ns, o, rfl, ho, hns⟩ := hn
    show o.within (do
      let as ← c.decodeItems ns
      o.close
      return as : Decoding (List α)) = _
    rw [decodeItems h hns, pure_bind, ho.close, pure_bind]
    exact Origin.within_pure o as

end Faithful

variable {α : Type} {d : Nat}

/-- Absent values are decoded. -/
theorem faithful_option_none (c : Codec α) : c.option.Faithful d none := by
  refine ⟨Json.tidy_null d, fun n hn => ?_⟩
  have hn : Json.null.SpelledBy n := hn
  rw [Json.SpelledBy] at hn
  rw [hn]
  rfl

/-- Texts are decoded. -/
theorem faithful_string (s : String) : string.Faithful d s := by
  refine ⟨Json.tidy_str d s, fun n hn => ?_⟩
  have hn : (Json.str s).SpelledBy n := hn
  rw [Json.SpelledBy] at hn
  rw [hn]
  rfl

/-- Truth values are decoded. -/
theorem faithful_bool (b : Bool) : bool.Faithful d b := by
  refine ⟨Json.tidy_bool d b, fun n hn => ?_⟩
  have hn : (Json.bool b).SpelledBy n := hn
  rw [Json.SpelledBy] at hn
  rw [hn]
  rfl

/-- A whole number that is not negative and below the bound is decoded. -/
theorem natBelow_whole {bound n : Nat} (h : n < bound) (fits : fitsWord (n : Int)) :
    natBelow bound (.num (.whole n fits)) = pure n := by
  show (if 0 ≤ (n : Int) ∧ (n : Int) < bound then pure (n : Int).toNat
    else throw .malformed : Decoding Nat) = _
  rw [if_pos ⟨by omega, by omega⟩]
  rfl

/-- Unsigned numbers of 64 bits are decoded. -/
theorem faithful_uint64 (n : UInt64) : uint64.Faithful d n := by
  refine ⟨Json.tidy_whole d _ _, fun m hm => ?_⟩
  have hm : (Json.num (.ofUInt64 n)).SpelledBy m := hm
  rw [Json.SpelledBy] at hm
  rw [hm]
  show (do return UInt64.ofNat (← natBelow UInt64.size (.num (.whole n.toNat _))) :
    Decoding UInt64) = _
  rw [natBelow_whole n.toNat_lt, pure_bind, UInt64.ofNat_toNat]

/-- Unsigned numbers of 32 bits are decoded. -/
theorem faithful_uint32 (n : UInt32) : uint32.Faithful d n := by
  refine ⟨Json.tidy_whole d _ _, fun m hm => ?_⟩
  have hm : (Json.num (.ofUInt64 n.toUInt64)).SpelledBy m := hm
  rw [Json.SpelledBy] at hm
  rw [hm]
  show (do return UInt32.ofNat (← natBelow UInt32.size (.num (.whole n.toUInt64.toNat _))) :
    Decoding UInt32) = _
  rw [natBelow_whole (by rw [UInt32.toNat_toUInt64]; exact n.toNat_lt), pure_bind,
    UInt32.toNat_toUInt64, UInt32.ofNat_toNat]

/-- Values that are written as texts are decoded if their texts are read. -/
theorem faithful_ofParser {write : α → String} {read : String → Except String α} {a : α}
    (h : read (write a) = .ok a) : (ofParser write read).Faithful d a := by
  refine ⟨Json.tidy_str d _, fun n hn => ?_⟩
  have hn : (Json.str (write a)).SpelledBy n := hn
  rw [Json.SpelledBy] at hn
  have text : Node.text (.str (write a)) = pure (write a) := rfl
  unfold ofParser
  dsimp only
  rw [hn, text, pure_bind, h]

/-- The cases of an enumeration are decoded if their names are read. -/
theorem faithful_enumeration {write : α → String} {read : String → Option α} {a : α}
    (h : read (write a) = some a) : (enumeration write read).Faithful d a := by
  refine ⟨Json.tidy_str d _, fun n hn => ?_⟩
  have hn : (Json.str (write a)).SpelledBy n := hn
  rw [Json.SpelledBy] at hn
  rw [hn]
  show caseOf read (write a) = _
  rw [caseOf, h]

end Codec

end TestChain
