import TestChain.Proofs.Codec.Restored
import TestChain.Proofs.Codec.Union
import TestChain.Scenario.Step

/-!
# Steps that lose nothing

A bound that is left out is written as the absent value, which is no amount when it is read. So the
codec of steps is faithful to every step but those that state a balance without all three of its
bounds (`Step.faithful_codec`), and it refuses what it wrote for these (`Step.refused`).
-/

namespace TestChain

open Codec Fields

variable {d : Nat}

/-! ## Amounts -/

/-- Amounts are decoded. -/
theorem faithful_amountCodec (n : UInt64) : amountCodec.Faithful d n := by
  refine ⟨Json.tidy_whole d _ _, fun m hm => ?_⟩
  have hm : (Json.num (.ofUInt64 n)).SpelledBy m := hm
  rw [Json.SpelledBy] at hm
  rw [hm]
  show amountOfInt n.toNat = _
  unfold amountOfInt
  rw [if_neg (by omega), Int.toNat_natCast, UInt64.ofNat_toNat]

/-- Bounds that are there are decoded. -/
theorem faithful_boundCodec_some (n : UInt64) : boundCodec.Faithful d (some n) := by
  refine ⟨Json.tidy_whole d _ _, fun m hm => ?_⟩
  show some <$> amountOf m = _
  have decoded : amountOf m = pure n := (faithful_amountCodec (d := d) n).decode m hm
  rw [decoded, map_pure]

/-- A bound that is there is decoded. -/
theorem faithful_boundCodec {bound : Option UInt64} (h : bound.isSome) :
    boundCodec.Faithful d bound := by
  obtain ⟨n, rfl⟩ := Option.isSome_iff_exists.1 h
  exact faithful_boundCodec_some n

/-- The absent value is no amount. -/
theorem refused_boundCodec {m : Node} (hm : Json.null.SpelledBy m) :
    (boundCodec.decode m).Refused := by
  rw [Json.SpelledBy] at hm
  rw [hm]
  exact .throw .malformed

/-- Bounds are written tidily, also those that are left out. -/
theorem tidy_boundCodec (bound : Option UInt64) : (boundCodec.encode bound).Tidy d := by
  cases bound with
  | none => exact Json.tidy_null d
  | some n => exact (faithful_boundCodec_some n).tidy

/-- Texts that may be absent are decoded. -/
theorem faithful_optionalText (s : Option String) : Codec.string.option.Faithful d s := by
  cases s with
  | none => exact faithful_option_none _
  | some s => exact (faithful_string s).option fun h => (nomatch h)

/-- Numbers that may be absent are decoded. -/
theorem faithful_optionalNumber (n : Option UInt64) : Codec.uint64.option.Faithful d n := by
  cases n with
  | none => exact faithful_option_none _
  | some n => exact (faithful_uint64 n).option fun h => (nomatch h)

/-! ## Expectations and bounds -/

/-- Expectations are decoded. -/
theorem Expectation.faithful_codec (e : Expectation) : Expectation.codec.Faithful 1 e :=
  faithful_record <| .map (.and (faithful_defaulted (faithful_optionalNumber _))
    (.and (faithful_defaulted (faithful_optionalNumber _)) (faithful_defaulted (faithful_bool _))
      (by decide)) (by decide)) rfl

/-- All bounds are there. -/
def BalanceBounds.IsComplete (b : BalanceBounds) : Prop :=
  b.equal.isSome ∧ b.atLeast.isSome ∧ b.atMost.isSome

/-- The step states all bounds of a balance, or nothing about one. -/
def Step.IsComplete : Step → Prop
  | .assertBalance b => b.IsComplete
  | _ => True

namespace Step

/-- The fields of bounds that are all there are followed. -/
theorem faithful_boundsFields {b : BalanceBounds} (h : b.IsComplete) :
    boundsFields.Faithful 1 b :=
  .map (.and (faithful_required (faithful_string _))
    (.and (faithful_defaulted (faithful_optionalText _))
    (.and (faithful_defaulted (faithful_boundCodec h.1))
    (.and (faithful_defaulted (faithful_boundCodec h.2.1))
      (faithful_defaulted (faithful_boundCodec h.2.2)) (by decide)) (by decide)) (by decide))
      (by decide)) rfl

/-- All fields of bounds are written, also for those that are left out. -/
theorem write_boundsFields (b : BalanceBounds) :
    boundsFields.write b = [("account", Codec.string.encode b.account),
      ("denom", Codec.string.option.encode b.denom), ("eq", boundCodec.encode b.equal),
      ("gte", boundCodec.encode b.atLeast), ("lte", boundCodec.encode b.atMost)] := rfl

/-- The names of the fields of bounds. -/
theorem names_boundsFields (b : BalanceBounds) :
    Members.names (boundsFields.write b) = ["account", "denom", "eq", "gte", "lte"] := rfl

/-- Bounds are written tidily, also if some are left out. -/
theorem tidy_boundsFields (b : BalanceBounds) : (Json.obj (boundsFields.write b)).Tidy 1 := by
  refine Json.tidy_obj (by rw [names_boundsFields]; decide) ?_
  simp only [write_boundsFields, List.forall_mem_cons]
  exact ⟨(faithful_string b.account).tidy, (faithful_optionalText b.denom).tidy,
    tidy_boundCodec b.equal, tidy_boundCodec b.atLeast, tidy_boundCodec b.atMost,
    List.forall_mem_nil _⟩

/-- A field of the bounds is written as the absent value and refuses it, if not all bounds are
there. -/
theorem exists_refused_bound {b : BalanceBounds} (h : ¬b.IsComplete) :
    ∃ name, (name, .null) ∈ boundsFields.write b ∧
      ∀ m, Json.null.SpelledBy m → boundsFields.Refuses name m := by
  have absent {bound : Option UInt64} (h : ¬bound.isSome) : boundCodec.encode bound = .null := by
    rw [Option.not_isSome_iff_eq_none.1 h]
    rfl
  rw [write_boundsFields]
  -- The first bound that is left out is refused; the others are not looked at.
  by_cases hequal : b.equal.isSome
  · by_cases hleast : b.atLeast.isSome
    · have hmost : ¬b.atMost.isSome := fun hmost => h ⟨hequal, hleast, hmost⟩
      refine ⟨"lte", by rw [absent hmost]; simp, fun m hm => .map ?_ _ _⟩
      exact .right (.right (.right (.right (refuses_single (refused_boundCodec hm)) (by decide))
        (by decide)) (by decide)) (by decide)
    · refine ⟨"gte", by rw [absent hleast]; simp, fun m hm => .map ?_ _ _⟩
      exact .right (.right (.right (.left (refuses_single (refused_boundCodec hm)) _)
        (by decide)) (by decide)) (by decide)
  · refine ⟨"eq", by rw [absent hequal]; simp, fun m hm => .map ?_ _ _⟩
    exact .right (.right (.left (refuses_single (refused_boundCodec hm)) _) (by decide)) (by decide)

/-! ## Steps -/

/-- Steps that leave out no bound are decoded. -/
theorem faithful_codec {x : Step} (h : x.IsComplete) : codec.Faithful 2 x := by
  cases x with
  | beginBlock epoch seconds =>
    have fields : beginFields.Faithful 1 (epoch, seconds) :=
      .and (faithful_defaulted (faithful_bool _)) (faithful_defaulted (faithful_uint64 _))
        (by decide)
    exact faithful_union rfl fields rfl rfl (by decide)
  | execute tx =>
    have fields : executeFields.Faithful 1 tx := faithful_required (faithful_string _)
    exact faithful_union rfl fields rfl rfl (by decide)
  | transfer t =>
    have fields : transferFields.Faithful 1 t :=
      .map (.and (faithful_required (faithful_string _))
        (.and (faithful_required (faithful_string _)) (faithful_required (faithful_amountCodec _))
          (by decide)) (by decide)) rfl
    exact faithful_union rfl fields rfl rfl (by decide)
  | endBlock expect =>
    have option : Expectation.codec.option.Faithful 1 expect := by
      cases expect with
      | none => exact faithful_option_none _
      | some e => exact e.faithful_codec.option fun h => (nomatch h)
    have fields : endFields.Faithful 1 expect := faithful_defaulted option
    exact faithful_union rfl fields rfl rfl (by decide)
  | skipBlocks count =>
    have fields : countFields.Faithful 1 count := faithful_required (faithful_uint64 _)
    exact faithful_union rfl fields rfl rfl (by decide)
  | increaseTime seconds =>
    have fields : secondsFields.Faithful 1 seconds := faithful_required (faithful_uint64 _)
    exact faithful_union rfl fields rfl rfl (by decide)
  | fundValidators => exact faithful_union_bare rfl rfl
  | rejectNextProposal => exact faithful_union_bare rfl rfl
  | assertHeight height =>
    have fields : heightFields.Faithful 1 height := faithful_required (faithful_uint64 _)
    exact faithful_union rfl fields rfl rfl (by decide)
  | assertTimeOffset seconds =>
    have fields : secondsFields.Faithful 1 seconds := faithful_required (faithful_uint64 _)
    exact faithful_union rfl fields rfl rfl (by decide)
  | assertBalance b => exact faithful_union rfl (faithful_boundsFields h) rfl rfl (by decide)

/-- What is written of a step that leaves out a bound is refused. -/
theorem refused {x : Step} (h : ¬x.IsComplete) {n : Node} (hn : (codec.encode x).SpelledBy n) :
    (codec.decode n).Refused := by
  cases x with
  | assertBalance b =>
    obtain ⟨name, hmem, hrefused⟩ := exists_refused_bound h
    have find : Variant.find? variants "assert_balance" =
        some (.record "assert_balance" boundsFields assertBalance) := rfl
    exact refused_union find hmem hrefused rfl (by rw [names_boundsFields]; decide) hn
  | _ => exact absurd trivial h

/-- Steps are written tidily. -/
theorem tidy_codec (x : Step) : (codec.encode x).Tidy 2 := by
  by_cases h : x.IsComplete
  · exact (faithful_codec h).tidy
  · cases x with
    | assertBalance b =>
      refine (tidy_union (a := assertBalance b) (tidy_boundsFields b) ?_).mono (by decide)
      show _ ∉ Members.names (boundsFields.write b)
      rw [names_boundsFields]
      decide
    | _ => exact absurd trivial h

/-- A step comes back from its text and from its free value exactly if it leaves out no bound; else
both are refused. -/
theorem reads_back_iff (x r : Step) :
    (codec.ofText (codec.text x) = .ok r ↔ r = x ∧ x.IsComplete) ∧
      (codec.ofJson (codec.toJson x) = .ok r ↔ r = x ∧ x.IsComplete) := by
  have spelled (t : Json.Trees) : (codec.encode x).SpelledBy (t.tree (codec.encode x)) :=
    t.spelled _ x.tidy_codec.distinct
  exact ⟨ofText_text_iff (x.tidy_codec.mono (by decide)) (fun h => (faithful_codec h).restores)
      fun h => refused h (spelled .ofText),
    ofJson_toJson_iff (fun h => (faithful_codec h).restores) fun h => refused h (spelled .ofValue)⟩

end Step

end TestChain
