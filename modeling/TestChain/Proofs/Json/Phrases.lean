import TestChain.Proofs.Json.Tokens

/-!
# Texts are read by their grammar

Every text that the grammar derives from a term is read as the tree of the term
(`Json.readText_of_writes`). The induction is on the derivation: each phrase of the grammar is read
by one function of the reader, up to where the phrase ends, whatever stands there
(`Reading.reads_of_derives`).
-/

namespace TestChain

namespace Reading

/-! ## Blanks -/

/-- Nothing is all blanks. -/
theorem blanks_nil : Blanks [] := fun _ h => (nomatch h)

/-- Blanks in front are passed over. -/
theorem skipBlanks_append {b s : List Char} (hb : Blanks b) :
    skipBlanks (b ++ s) = skipBlanks s := by
  unfold skipBlanks
  induction b with
  | nil => rfl
  | cons c b ih =>
    rw [List.cons_append, List.dropWhile_cons, if_pos (hb c List.mem_cons_self)]
    exact ih fun d hd => hb d (List.mem_cons_of_mem _ hd)

/-- No blanks are passed over before another character. -/
theorem skipBlanks_cons {c : Char} {s : List Char} (hc : isBlank c = false) :
    skipBlanks (c :: s) = c :: s := by
  unfold skipBlanks
  rw [List.dropWhile_cons, if_neg (by simp [hc])]

/-- Blanks in front of another character are passed over up to it. -/
theorem skipBlanks_upTo {b s : List Char} {c : Char} (hb : Blanks b) (hc : isBlank c = false)
    (rest : List Char) : skipBlanks (b ++ c :: s ++ rest) = c :: (s ++ rest) := by
  rw [List.append_assoc, skipBlanks_append hb, List.cons_append, skipBlanks_cons hc]

/-- A blank does not go on with a number. -/
theorem follows_of_blank {c : Char} {s : List Char} (hc : isBlank c = true) : Follows (c :: s) := by
  unfold isBlank at hc
  simp only [Bool.or_eq_true, decide_eq_true_eq] at hc
  rcases hc with ((rfl | rfl) | rfl) | rfl <;> exact ⟨rfl, by decide, by decide, by decide⟩

/-- What stands after blanks goes on with a number only if it does so without them. -/
theorem follows_append {b s : List Char} (hb : Blanks b) (hs : Follows s) :
    Follows (b ++ s) := by
  cases b with
  | nil => exact hs
  | cons c b => exact follows_of_blank (hb c List.mem_cons_self)

/-- A separator does not go on with a number, with blanks in front or without. -/
theorem follows_separator {b s : List Char} {c : Char} (hb : Blanks b)
    (hc : c ∈ [',', ']', '\x7d']) (rest : List Char) : Follows (b ++ c :: s ++ rest) := by
  rw [List.append_assoc]
  refine follows_append hb ?_
  simp only [List.mem_cons, List.not_mem_nil, or_false] at hc
  rcases hc with rfl | rfl | rfl <;> exact ⟨rfl, by decide, by decide, by decide⟩

/-- Blanks are passed over once. -/
theorem skipBlanks_skipBlanks (s : List Char) : skipBlanks (skipBlanks s) = skipBlanks s := by
  induction s with
  | nil => rfl
  | cons c s ih =>
    cases hc : isBlank c with
    | false => rw [skipBlanks_cons hc, skipBlanks_cons hc]
    | true =>
      have skipped : skipBlanks (c :: s) = skipBlanks s := by
        unfold skipBlanks
        rw [List.dropWhile_cons, if_pos hc]
      rw [skipped, ih]

/-! ## Beginnings -/

/-- A digit is none of the characters with which other values begin. -/
theorem not_begin_of_isDigit {c : Char} (h : c.isDigit = true) :
    isBlank c = false ∧ c ≠ 'n' ∧ c ≠ 't' ∧ c ≠ 'f' ∧ c ≠ '"' ∧ c ≠ '-' := by
  refine ⟨?_, ?_, ?_, ?_, ?_, ?_⟩
  · cases hb : isBlank c with
    | false => rfl
    | true =>
      have := (follows_of_blank (s := []) hb).1
      rw [h] at this
      cases this
  all_goals
    rintro rfl
    cases h

/-- A numeral begins with a digit. -/
theorem NumeralText.front {x : Numeral} {s : List Char} (h : NumeralText x s) :
    ∃ c t, s = c :: t ∧ c.isDigit = true := by
  cases h with
  | @parts _ whole f e _ _ hwhole _ _ _ =>
    obtain ⟨c, t, rfl⟩ := List.exists_cons_of_ne_nil hwhole.1
    exact ⟨c, t ++ (f ++ e), rfl, hwhole.2 c List.mem_cons_self⟩

/-- A value begins with a character that is no blank and closes nothing. -/
theorem Derives.value_front {t : Term} {s : List Char} (h : Derives (.value t) s) :
    ∃ c r, s = c :: r ∧ isBlank c = false ∧ c ≠ ']' := by
  cases h with
  | nullWord => exact ⟨_, _, rfl, by decide, by decide⟩
  | trueWord => exact ⟨_, _, rfl, by decide, by decide⟩
  | falseWord => exact ⟨_, _, rfl, by decide, by decide⟩
  | num _ h =>
    obtain ⟨c, r, rfl, hc⟩ := h.front
    refine ⟨c, r, rfl, (not_begin_of_isDigit hc).1, ?_⟩
    rintro rfl
    cases hc
  | negative _ _ => exact ⟨_, _, rfl, by decide, by decide⟩
  | str _ => exact ⟨_, _, rfl, by decide, by decide⟩
  | noItems _ => exact ⟨_, _, rfl, by decide, by decide⟩
  | arr _ => exact ⟨_, _, rfl, by decide, by decide⟩
  | noMembers _ => exact ⟨_, _, rfl, by decide, by decide⟩
  | obj _ => exact ⟨_, _, rfl, by decide, by decide⟩

/-- Blanks in front of a value are passed over up to the value. -/
theorem Derives.skipBlanks_value {t : Term} {b s : List Char} (h : Derives (.value t) s)
    (hb : Blanks b) (rest : List Char) : skipBlanks (b ++ (s ++ rest)) = s ++ rest := by
  obtain ⟨c, r, rfl, hc, -⟩ := h.value_front
  rw [skipBlanks_append hb, List.cons_append, skipBlanks_cons hc]

/-- The items of an array begin with a character that does not close it. -/
theorem Derives.items_front {ts : List Term} {s : List Char} (h : Derives (.items ts) s)
    (rest : List Char) : ∃ c r, skipBlanks (s ++ rest) = c :: r ∧ c ≠ ']' := by
  cases h with
  | items hb h _ =>
    rw [List.append_assoc, List.append_assoc, h.skipBlanks_value hb]
    obtain ⟨c, r, rfl, -, hc⟩ := h.value_front
    exact ⟨c, _, List.cons_append, hc⟩

/-- The members of an object begin with a quote. -/
theorem Derives.members_front {ms : List (List Piece × Term)} {s : List Char}
    (h : Derives (.members ms) s) (rest : List Char) :
    ∃ r, skipBlanks (s ++ rest) = '"' :: r := by
  cases h with
  | members hb _ _ _ _ _ => exact ⟨_, skipBlanks_upTo hb (by decide) rest⟩

/-- What follows an item does not go on with a number. -/
theorem Derives.follows_moreItems {ts : List Term} {s : List Char} (h : Derives (.moreItems ts) s)
    (rest : List Char) : Follows (s ++ rest) := by
  cases h with
  | lastItem hb => exact follows_separator hb (by decide) rest
  | nextItem hb _ => exact follows_separator hb (by decide) rest

/-- What follows a member does not go on with a number. -/
theorem Derives.follows_moreMembers {ms : List (List Piece × Term)} {s : List Char}
    (h : Derives (.moreMembers ms) s) (rest : List Char) : Follows (s ++ rest) := by
  cases h with
  | lastMember hb => exact follows_separator hb (by decide) rest
  | nextMember hb _ => exact follows_separator hb (by decide) rest

/-! ## Steps of the reader -/

/-- A numeral with a sign or without is read by its parts. -/
theorem readNode_numeral {fuel depth : Nat} {w s rest : List Char} {x : Numeral}
    (hw : skipBlanks w = (if x.negative then '-' :: s else s) ++ rest) (h : NumeralText x s)
    (hrest : Follows rest) :
    readNode (fuel + 1) depth w = (numeralNode x, some rest) := by
  have read := readNumber_of_text h hrest
  rw [readNode, hw]
  cases hsign : x.negative with
  | true =>
    rw [hsign] at read
    simp only [if_true, List.cons_append, Char.reduceEq, if_false, read]
  | false =>
    rw [hsign] at read
    obtain ⟨c, t, rfl, hc⟩ := h.front
    obtain ⟨-, hn, ht, hf, hquote, hminus⟩ := not_begin_of_isDigit hc
    simp only [Bool.false_eq_true, if_false, List.cons_append, if_neg hn, if_neg ht, if_neg hf,
      if_neg hquote, if_neg hminus, if_pos hc]
    exact read

/-- An array with items is read by its items. -/
theorem readNode_array {fuel depth : Nat} {w s after : List Char} {items : List Node}
    (hw : skipBlanks w = '[' :: s) (hs : ∃ c r, skipBlanks s = c :: r ∧ c ≠ ']')
    (hitems : readItems fuel (depth + 1) (skipBlanks s) = (items, some after)) :
    readNode (fuel + 1) depth w =
      (container depth (.seq items (.text true)) true, some after) := by
  obtain ⟨c, r, hs, hc⟩ := hs
  rw [readNode, hw]
  simp only [Char.reduceEq, if_false, if_true, Char.reduceIsDigit, Bool.false_eq_true]
  rw [hs] at hitems ⊢
  split
  · rename_i heq
    cases heq
    exact absurd rfl hc
  · simp only [hitems, Option.isSome_some]

/-- An object with members is read by its members, also where the text breaks off in them. -/
theorem readNode_object {fuel depth : Nat} {w s : List Char} {members : List (Node × Node)}
    {after : Option (List Char)} (hw : skipBlanks w = '\x7b' :: s)
    (hs : ∃ r, skipBlanks s = '"' :: r)
    (hmembers : readMembers fuel (depth + 1) (skipBlanks s) = (members, after)) :
    readNode (fuel + 1) depth w =
      (container depth (.map members (.text after.isSome)) after.isSome, after) := by
  obtain ⟨r, hs⟩ := hs
  rw [readNode, hw]
  simp only [Char.reduceEq, if_false, if_true, Char.reduceIsDigit, Bool.false_eq_true]
  rw [hs] at hmembers ⊢
  split
  · rename_i heq
    cases heq
  · simp only [hmembers]

/-- Reads the items after another one, up to the closing bracket. -/
def readMoreItems (fuel depth : Nat) (s : List Char) : List Node × Option (List Char) :=
  match skipBlanks s with
  | ',' :: rest => readItems fuel depth rest
  | ']' :: rest => ([], some rest)
  | _ => ([], none)

/-- Items are read one after the other. -/
theorem readItems_of_node {fuel depth : Nat} {w rest : List Char} {node : Node}
    (hnode : readNode fuel depth w = (node, some rest)) :
    readItems (fuel + 1) depth w =
      (node :: (readMoreItems fuel depth rest).1, (readMoreItems fuel depth rest).2) := by
  rw [readItems, hnode]
  unfold readMoreItems
  dsimp only
  split <;> simp_all

/-- Reads the members after another one, up to the closing brace. -/
def readMoreMembers (fuel depth : Nat) (s : List Char) : List (Node × Node) × Option (List Char) :=
  match skipBlanks s with
  | ',' :: rest => readMembers fuel depth rest
  | '\x7d' :: rest => ([], some rest)
  | _ => ([], none)

/-- Members are read one after the other. -/
theorem readMembers_of_node {fuel depth : Nat} {ps : List Piece} {w k s v rest : List Char}
    {node : Node} (hw : skipBlanks w = '"' :: (k ++ s)) (hk : Quoted ps k)
    (hs : skipBlanks s = ':' :: v) (hnode : readNode fuel depth v = (node, some rest)) :
    readMembers (fuel + 1) depth w =
      ((piecesNode ps, node) :: (readMoreMembers fuel depth rest).1,
        (readMoreMembers fuel depth rest).2) := by
  rw [readMembers, hw]
  simp only [readString_of_quoted hk, hs, hnode]
  unfold readMoreMembers piecesNode
  cases join ps with
  | none => split <;> simp_all
  | some cs => split <;> simp_all

/-! ## Phrases -/

/-- A phrase is read from its text, given enough fuel, up to whatever follows it. -/
def Phrase.Reads : Phrase → List Char → Prop
  | .value t, s => ∀ fuel depth w rest, 2 * s.length ≤ fuel → Follows rest →
      skipBlanks w = s ++ rest → readNode fuel depth w = (t.node depth, some rest)
  | .items ts, s => ∀ fuel depth w rest, 2 * s.length < fuel →
      skipBlanks w = skipBlanks (s ++ rest) →
      readItems fuel depth w = (Term.nodes depth ts, some rest)
  | .moreItems ts, s => ∀ fuel depth rest, 2 * s.length ≤ fuel →
      readMoreItems fuel depth (s ++ rest) = (Term.nodes depth ts, some rest)
  | .members ms, s => ∀ fuel depth w rest, 2 * s.length < fuel →
      skipBlanks w = skipBlanks (s ++ rest) →
      readMembers fuel depth w = (Term.memberNodes depth ms, some rest)
  | .moreMembers ms, s => ∀ fuel depth rest, 2 * s.length ≤ fuel →
      readMoreMembers fuel depth (s ++ rest) = (Term.memberNodes depth ms, some rest)

/-- Whatever the grammar derives is read. -/
theorem reads_of_derives {p : Phrase} {s : List Char} (h : Derives p s) : p.Reads s := by
  induction h with
  | nullWord =>
    rintro (_ | fuel) depth w rest hfuel - hw
    · cases hfuel
    · rw [readNode, hw]
      rfl
  | trueWord =>
    rintro (_ | fuel) depth w rest hfuel - hw
    · cases hfuel
    · rw [readNode, hw]
      rfl
  | falseWord =>
    rintro (_ | fuel) depth w rest hfuel - hw
    · cases hfuel
    · rw [readNode, hw]
      rfl
  | @num x s hsign h =>
    rintro (_ | fuel) depth w rest hfuel hrest hw
    · obtain ⟨c, t, rfl, -⟩ := h.front
      cases hfuel
    · refine readNode_numeral ?_ h hrest
      rw [hw, hsign]
      rfl
  | @negative x s hsign h =>
    rintro (_ | fuel) depth w rest hfuel hrest hw
    · cases hfuel
    · refine readNode_numeral ?_ h hrest
      rw [hw, hsign]
      rfl
  | @str ps s h =>
    rintro (_ | fuel) depth w rest hfuel - hw
    · cases hfuel
    · rw [readNode, hw, List.cons_append]
      simp only [Char.reduceEq, if_false, if_true, readString_of_quoted h]
      unfold Term.node piecesNode
      cases join ps <;> rfl
  | @noItems b hb =>
    rintro (_ | fuel) depth w rest hfuel - hw
    · cases hfuel
    · have close : skipBlanks (b ++ [']'] ++ rest) = ']' :: rest :=
        skipBlanks_upTo hb (by decide) rest
      rw [readNode, hw, List.cons_append]
      simp only [Char.reduceEq, if_false, if_true, Char.reduceIsDigit, Bool.false_eq_true, close]
      rfl
  | @arr ts s h ih =>
    rintro (_ | fuel) depth w rest hfuel - hw
    · cases hfuel
    · rw [List.length_cons] at hfuel
      refine readNode_array hw (h.items_front rest) (ih fuel (depth + 1) _ rest (by omega) ?_)
      exact skipBlanks_skipBlanks _
  | @noMembers b hb =>
    rintro (_ | fuel) depth w rest hfuel - hw
    · cases hfuel
    · have close : skipBlanks (b ++ ['\x7d'] ++ rest) = '\x7d' :: rest :=
        skipBlanks_upTo hb (by decide) rest
      rw [readNode, hw, List.cons_append]
      simp only [Char.reduceEq, if_false, if_true, Char.reduceIsDigit, Bool.false_eq_true, close]
      rfl
  | @obj ms s h ih =>
    rintro (_ | fuel) depth w rest hfuel - hw
    · cases hfuel
    · rw [List.length_cons] at hfuel
      refine readNode_object hw (h.members_front rest) (ih fuel (depth + 1) _ rest (by omega) ?_)
      exact skipBlanks_skipBlanks _
  | @items t ts b s r hb h hr ih ihr =>
    rintro (_ | fuel) depth w rest hfuel hw
    · cases hfuel
    · simp only [List.length_append] at hfuel
      rw [List.append_assoc, List.append_assoc, h.skipBlanks_value hb] at hw
      have first := ih fuel depth w (r ++ rest) (by omega) (hr.follows_moreItems rest) hw
      rw [readItems_of_node first, ihr fuel depth rest (by omega)]
      rfl
  | @lastItem b hb =>
    intro fuel depth rest _
    unfold readMoreItems
    rw [skipBlanks_upTo hb (by decide)]
    rfl
  | @nextItem ts b s hb h ih =>
    intro fuel depth rest hfuel
    simp only [List.length_append, List.length_cons] at hfuel
    unfold readMoreItems
    rw [skipBlanks_upTo hb (by decide)]
    exact ih fuel depth (s ++ rest) rest (by omega) rfl
  | @members ps t ms b k b₁ b₂ s r hb hk hb₁ hb₂ h hr ih ihr =>
    rintro (_ | fuel) depth w rest hfuel hw
    · cases hfuel
    · simp only [List.length_append, List.length_cons] at hfuel
      rw [skipBlanks_upTo hb (by decide), List.append_assoc] at hw
      have colon : skipBlanks (b₁ ++ ':' :: (b₂ ++ (s ++ r)) ++ rest) =
          ':' :: (b₂ ++ (s ++ (r ++ rest))) := by
        rw [skipBlanks_upTo hb₁ (by decide), List.append_assoc, List.append_assoc]
      have first := ih fuel depth (b₂ ++ (s ++ (r ++ rest))) (r ++ rest) (by omega)
        (hr.follows_moreMembers rest) (h.skipBlanks_value hb₂ _)
      rw [readMembers_of_node hw hk colon first, ihr fuel depth rest (by omega)]
      rfl
  | @lastMember b hb =>
    intro fuel depth rest _
    unfold readMoreMembers
    rw [skipBlanks_upTo hb (by decide)]
    rfl
  | @nextMember ms b s hb h ih =>
    intro fuel depth rest hfuel
    simp only [List.length_append, List.length_cons] at hfuel
    unfold readMoreMembers
    rw [skipBlanks_upTo hb (by decide)]
    exact ih fuel depth (s ++ rest) rest (by omega) rfl

end Reading

/-- A text that has the structure of a term is read as the tree of the term. -/
theorem Json.readText_of_writes {t : Reading.Term} {s : List Char} (h : Reading.Writes t s) :
    Json.readText s = (t.node 0, true) := by
  obtain ⟨b, w, b', hb, hw, hb', rfl⟩ := h
  have after : Reading.Follows b' := by
    have read := Reading.follows_append (s := []) hb' trivial
    rwa [List.append_nil] at read
  have close : Reading.skipBlanks b' = [] := by
    have read := Reading.skipBlanks_append (s := []) hb'
    rwa [List.append_nil] at read
  have read := Reading.reads_of_derives hw (2 * (b ++ (w ++ b')).length + 2) 0 (b ++ (w ++ b')) b'
    (by simp only [List.length_append]; omega) after (hw.skipBlanks_value hb b')
  rw [Json.readText, read]
  simp only [close, List.isEmpty_nil]

end TestChain
