import TestChain.Proofs.Text.Blank
import TestChain.Random.Seed

/-!
# Runs are repeated from their hints

A seed is spelled by sixteen hexadecimal digits behind `0x` and by its decimal digits, with white
space around them or not, and the former with letters of either case (`SeededRng.Spells`). Whatever
spells a seed is read as that seed. A generator keeps its seed however much is drawn from it, and
its hint, like the command that was logged when it was made, assigns a text that spells the seed. So
a run whose variable has the value of the hint begins with the same generator
(`SeededRng.hint_replays`).
-/

namespace TestChain

open Text

namespace SeededRng

variable {a b s : List Char} {seed : UInt64} {r start : SeededRng}

/-! ## Texts that spell a seed -/

/-- The texts that spell a seed, with white space around them or not. -/
inductive Spells (seed : UInt64) : List Char → Prop where
  /-- The text of a hint, but for the case of letters. -/
  | hexadecimal {a t b : List Char} (ha : ∀ c ∈ a, isBlank c = true)
    (ht : t.map Char.toLower = (seedText seed).toList.map Char.toLower)
    (hb : ∀ c ∈ b, isBlank c = true) : Spells seed (a ++ t ++ b)
  /-- The decimal digits. -/
  | decimal {a b : List Char} (ha : ∀ c ∈ a, isBlank c = true) (hb : ∀ c ∈ b, isBlank c = true) :
    Spells seed (a ++ natDigits 10 seed.toNat ++ b)

/-- The text of a seed has no white space. -/
theorem not_blank_seedText (seed : UInt64) : ∀ c ∈ (seedText seed).toList, isBlank c = false := by
  unfold seedText
  rw [String.toList_ofList]
  refine List.forall_mem_cons.2 ⟨rfl, List.forall_mem_cons.2 ⟨rfl, ?_⟩⟩
  exact not_blank_of_readNat? (readNat?_padded (by decide) (by decide) 16 seed.toNat)

/-- Behind `0x` and `0X` hexadecimal digits are read. -/
theorem parseSeed?_of_hexadecimal {x : Char} {digits : List Char} (hx : x.toLower = 'x')
    (ht : trim s = '0' :: x :: digits) :
    parseSeed? (String.ofList s) = (readBounded? 16 UInt64.size digits).map UInt64.ofNat := by
  have cases : x = 'x' ∨ x = 'X' := by
    have lower := toNat_toLower x
    have code : 'x'.toNat = 120 ∧ 'X'.toNat = 88 := ⟨rfl, rfl⟩
    rw [hx] at lower
    rw [← Char.toNat_inj, ← Char.toNat_inj]
    split at lower
    · omega
    · omega
  unfold parseSeed?
  rw [String.toList_ofList, ht]
  rcases cases with rfl | rfl
  · rfl
  · rfl

/-- Elsewhere decimal digits are. -/
theorem parseSeed?_of_decimal (digit : ∀ c ∈ trim s, c.isDigit = true) :
    parseSeed? (String.ofList s) =
      (readBounded? 10 UInt64.size (trim s)).map UInt64.ofNat := by
  unfold parseSeed?
  rw [String.toList_ofList]
  split
  · next digits ht =>
    have letter := digit 'x' (ht ▸ List.mem_cons_of_mem _ List.mem_cons_self)
    cases letter
  · next digits ht =>
    have letter := digit 'X' (ht ▸ List.mem_cons_of_mem _ List.mem_cons_self)
    cases letter
  · rfl

/-- Whatever spells a seed is read as it. -/
theorem Spells.parse (h : Spells seed s) : parseSeed? (String.ofList s) = some seed := by
  have back : (some seed.toNat).map UInt64.ofNat = some seed := by
    rw [Option.map_some, UInt64.ofNat_toNat]
  cases h with
  | @hexadecimal a t b ha ht hb =>
    -- The case of a letter makes no difference for white space, and so for the ends of the text.
    have solid : ∀ c ∈ t, isBlank c = false := fun c hc => by
      have lower : c.toLower ∈ t.map Char.toLower := List.mem_map_of_mem hc
      rw [ht] at lower
      obtain ⟨d, hd, same⟩ := List.mem_map.1 lower
      rw [← isBlank_toLower, ← same, isBlank_toLower]
      exact not_blank_seedText seed d hd
    have trimmed : trim (a ++ t ++ b) = t := trim_around ha solid hb
    unfold seedText at ht
    rw [String.toList_ofList, List.map_cons, List.map_cons] at ht
    obtain ⟨zero, rest, rfl, hzero, ht⟩ := List.map_eq_cons_iff.1 ht
    obtain ⟨x, digits, rfl, hx, hdigits⟩ := List.map_eq_cons_iff.1 ht
    obtain rfl := (toLower_eq_iff (by decide)).1 hzero
    have read : readBounded? 16 UInt64.size digits = some seed.toNat := by
      rw [← readBounded?_map_toLower, hdigits, readBounded?_map_toLower]
      exact readBounded?_of_readNat? (readNat?_padded (by decide) (by decide) 16 seed.toNat)
        seed.toNat_lt_size
    rw [parseSeed?_of_hexadecimal hx trimmed, read, back]
  | @decimal a b ha hb =>
    have solid : ∀ c ∈ natDigits 10 seed.toNat, isBlank c = false :=
      not_blank_of_readNat? (readNat?_natDigits (by decide) (by decide) seed.toNat)
    have trimmed : trim (a ++ natDigits 10 seed.toNat ++ b) = natDigits 10 seed.toNat :=
      trim_around ha solid hb
    rw [parseSeed?_of_decimal fun c hc => isDigit_of_mem_natDigits (trimmed ▸ hc), trimmed,
      readBounded?_natDigits seed.toNat_lt_size, back]

/-! ## Hints -/

/-- What stands behind the first equals sign of a line. -/
def afterEquals (s : List Char) : List Char :=
  (s.dropWhile (· ≠ '=')).drop 1

/-- The value that a command assigns: what stands behind the first equals sign up to white space. -/
def assigned (s : List Char) : List Char :=
  (afterEquals s).takeWhile fun c => !isBlank c

/-- What stands behind an equals sign in front of which there is none. -/
theorem afterEquals_append (h : '=' ∉ a) : afterEquals (a ++ '=' :: b) = b := by
  have other : ∀ c ∈ a, decide (c ≠ '=') = true := fun c hc =>
    decide_eq_true fun (e : c = '=') => h (e ▸ hc)
  unfold afterEquals
  rw [List.dropWhile_append_of_pos other, List.dropWhile_cons_of_neg (by decide)]
  rfl

/-- The variable has no equals sign. -/
theorem equals_not_mem_seedVariable : '=' ∉ seedVariable.toList := by
  decide

/-- Behind the equals sign of a hint is the text of the seed. -/
theorem afterEquals_replayHint (r : SeededRng) :
    afterEquals r.replayHint.toList = (seedText r.seed).toList := by
  have parts : r.replayHint.toList =
      seedVariable.toList ++ '=' :: (seedText r.seed).toList := by
    unfold replayHint
    rw [String.toList_append, String.toList_append, List.append_assoc]
    rfl
  rw [parts, afterEquals_append equals_not_mem_seedVariable]

/-- The logged command assigns the text of the seed. -/
theorem assigned_replayLine (seed : UInt64) :
    assigned (replayLine seed).toList = (seedText seed).toList := by
  have parts : (replayLine seed).toList =
      ("   Replay: ".toList ++ seedVariable.toList) ++
        '=' :: ((seedText seed).toList ++ ' ' :: "cargo test ...".toList) := by
    unfold replayLine
    rw [String.toList_append, String.toList_append, String.toList_append, String.toList_append,
      List.append_assoc, List.append_assoc]
    rfl
  have front : '=' ∉ "   Replay: ".toList ++ seedVariable.toList := by decide
  unfold assigned
  rw [parts, afterEquals_append front, List.takeWhile_append_of_pos fun c hc => by
      rw [not_blank_seedText seed c hc]
      rfl,
    List.takeWhile_cons_of_neg (by decide), List.append_nil]

/-! ## Runs -/

/-- The generators that come from one in a run: values are drawn from it in any way, and other
generators are split off. -/
inductive Reached (start : SeededRng) : SeededRng → Prop where
  /-- The first one. -/
  | start : Reached start start
  /-- One from which a value was drawn. -/
  | draw {r : SeededRng} {α : Type} (f : Generator → α × Generator) :
    Reached start r → Reached start (r.draw f).2
  /-- One from which a generator was split off. -/
  | fork {r : SeededRng} : Reached start r → Reached start r.fork.2

/-- A generator keeps its seed. -/
theorem Reached.seed_eq (h : Reached start r) : r.seed = start.seed := by
  induction h with
  | start => rfl
  | draw f _ ih => exact ih
  | fork _ ih => exact ih

/-- A run that began with the value of the variable has a seed from which its generator grew. -/
theorem ofVariable_of_spells (h : Spells seed s) (random : UInt64) :
    ofVariable (some (String.ofList s)) random = ofSeed seed := by
  unfold ofVariable
  rw [Option.bind_some, h.parse, Option.getD_some]

/-- Whatever spells a seed is read as it: the text of a hint, with letters of either case, and the
decimal digits, with white space around them or not. At any time of a run, the text behind the
equals sign of the generator's hint is that of the seed, and so is what the command assigns that was
logged when the run began. With a value of the variable that spells this seed another run begins
with the very same generator. -/
theorem hint_replays :
    (∀ seed s, Spells seed s → parseSeed? (String.ofList s) = some seed) ∧
    ∀ value random r, Reached (ofVariable value random) r →
      afterEquals r.replayHint.toList = (seedText r.seed).toList ∧
      assigned (replayLine (ofVariable value random).seed).toList = (seedText r.seed).toList ∧
      ∀ s, Spells r.seed s → ∀ other,
        ofVariable (some (String.ofList s)) other = ofVariable value random := by
  refine ⟨fun seed s => Spells.parse, fun value random r reached => ?_⟩
  have kept := reached.seed_eq
  refine ⟨r.afterEquals_replayHint, ?_, fun s spells other => ?_⟩
  · rw [assigned_replayLine, kept]
  · rw [ofVariable_of_spells spells, kept]
    rfl

/-- From the seed `0xdeadbeef` a run draws a value and splits a generator off, after which its
generator is another one. Its hint in capital letters with white space around it, and the decimal
digits of its seed, are read as the seed, and another run begins with either as this one did. -/
theorem exists_replayed :
    ∃ first r : SeededRng, Reached first r ∧ r ≠ first ∧
      afterEquals r.replayHint.toList = "0x00000000deadbeef".toList ∧
      assigned (replayLine first.seed).toList = "0x00000000deadbeef".toList ∧
      parseSeed? "\t0X00000000DeadBeef " = some 0xdeadbeef ∧
      parseSeed? "3735928559\n" = some 0xdeadbeef ∧
      ofVariable (some "\t0X00000000DeadBeef ") 5 = first ∧
      ofVariable (some "3735928559\n") 7 = first := by
  obtain ⟨parsed, replayed⟩ := hint_replays
  have capitals : Spells 0xdeadbeef ("\t".toList ++ "0X00000000DeadBeef".toList ++ " ".toList) :=
    .hexadecimal (List.all_eq_true.1 rfl) (by decide) (List.all_eq_true.1 rfl)
  have digits : Spells 0xdeadbeef ([] ++ "3735928559".toList ++ "\n".toList) :=
    .decimal (List.forall_mem_nil _) (List.all_eq_true.1 rfl)
  have reached : Reached (ofVariable none 0xdeadbeef)
      ((ofVariable none 0xdeadbeef).draw Generator.next64).2.fork.2 := (Reached.start.draw _).fork
  obtain ⟨hint, command, again⟩ := replayed none 0xdeadbeef _ reached
  exact ⟨_, _, reached, by decide, hint, command, parsed _ _ capitals, parsed _ _ digits,
    again _ capitals 5, again _ digits 7⟩

end SeededRng

end TestChain
