import TestChain.Genesis.Document
import TestChain.Proofs.Codec.Documents
import TestChain.Proofs.Genesis.Text

/-!
# What is read as a free value

Whatever a text is, the tree that is read from it has nothing but values, and what is missing or has
no value: no words of other notations, no aliases, and no containers that stand in more than 126
others (`Reading.textual_readNode`). So a free value that is decoded from it is in order, is nested
at most 127 deep, and its doubles are those that numerals stand for (`Node.free_of_toJson`). The
states of a document that was read are such values (`GenesisDocument.free_of_ofBytes`).
-/

namespace TestChain

namespace Json

variable {P : Float → Prop}

/-- All doubles in members have a property if those in each of them do. -/
theorem doublesMembers_iff {members : List (String × Json)} :
    DoublesMembers P members ↔ ∀ m ∈ members, m.2.Doubles P := by
  induction members with
  | nil => exact iff_of_true trivial (List.forall_mem_nil _)
  | cons m rest ih =>
    rw [List.forall_mem_cons, ← ih]
    exact Iff.rfl

/-- Members are nested as deep as the deepest of them. -/
theorem depthMembers_le_iff {members : List (String × Json)} {d : Nat} :
    depthMembers members ≤ d ↔ ∀ m ∈ members, m.2.depth ≤ d := by
  induction members with
  | nil => exact iff_of_true (Nat.zero_le d) (List.forall_mem_nil _)
  | cons m rest ih =>
    rw [List.forall_mem_cons, ← ih, depthMembers, Nat.max_le]

/-- A free value of a text: its members are in order, its containers are not nested deeper than it
says, and its doubles have a property. -/
structure Free (P : Float → Prop) (d : Nat) (j : Json) : Prop where
  /-- The members are in order. -/
  sorted : j.sorted = j
  /-- The containers are nested at most so deep. -/
  depth_le : j.depth ≤ d
  /-- The doubles have the property. -/
  doubles : j.Doubles P

end Json

namespace Node

mutual

/-- The tree is one that a JSON text may have for a value that stands in some containers, and its
doubles have a property. -/
def Textual (P : Float → Prop) : Nat → Node → Prop
  | _, .num (.float x) => P x
  | depth, .seq items (.text _) => depth ≤ 126 ∧ TextualItems P (depth + 1) items
  | depth, .map members (.text _) => depth ≤ 126 ∧ TextualMembers P (depth + 1) members
  | _, .null => True
  | _, .bool _ => True
  | _, .num (.whole _ _) => True
  | _, .str _ => True
  | _, .unreadable => True
  | _, .cut => True
  | _, _ => False

/-- All items are such trees. -/
def TextualItems (P : Float → Prop) : Nat → List Node → Prop
  | _, [] => True
  | depth, n :: rest => n.Textual P depth ∧ TextualItems P depth rest

/-- The values of all members are such trees. -/
def TextualMembers (P : Float → Prop) : Nat → List (Node × Node) → Prop
  | _, [] => True
  | depth, (_, n) :: rest => n.Textual P depth ∧ TextualMembers P depth rest

end

variable {P : Float → Prop}

mutual

/-- What is decoded from the tree of a text is a free value of a text. -/
theorem free_of_toJson (depth : Nat) (hdepth : depth ≤ 127) : (n : Node) → n.Textual P depth →
    (left : Nat) → (r : Json × Nat) → n.toJson left = .ok r → r.1.Free P (127 - depth)
  | .null, _, left, r, h => by
    cases h
    exact ⟨rfl, Nat.zero_le _, trivial⟩
  | .bool b, _, left, r, h => by
    cases h
    exact ⟨rfl, Nat.zero_le _, trivial⟩
  | .num (.whole i fits), _, left, r, h => by
    cases h
    exact ⟨rfl, Nat.zero_le _, trivial⟩
  | .num (.float x), hx, left, r, h => by
    cases h
    exact ⟨rfl, Nat.zero_le _, hx⟩
  | .str s, _, left, r, h => by
    cases h
    exact ⟨rfl, Nat.zero_le _, trivial⟩
  | .seq items (.text whole), ht, left, r, h => by
    obtain ⟨shallow, hitems⟩ := ht
    obtain ⟨⟨js, left₁⟩, hjs, h⟩ := except_bind_ok_iff.1 h
    obtain ⟨⟨u, left₂⟩, -, h⟩ := except_bind_ok_iff.1 h
    cases h
    obtain ⟨hsorted, hdeep, hdoubles⟩ :=
      free_of_itemsToJson (depth + 1) (by omega) items hitems left (js, left₁) hjs
    refine ⟨?_, ?_, hdoubles⟩
    · rw [Json.sorted, hsorted]
    · rw [Json.depth]
      dsimp only at hdeep ⊢
      omega
  | .map members (.text whole), ht, left, r, h => by
    obtain ⟨shallow, hmembers⟩ := ht
    obtain ⟨⟨js, left₁⟩, hjs, h⟩ := except_bind_ok_iff.1 h
    obtain ⟨⟨u, left₂⟩, -, h⟩ := except_bind_ok_iff.1 h
    cases h
    have parts := free_of_membersToJson (depth + 1) (by omega) members hmembers left (js, left₁) hjs
    -- Putting the members in order drops some and changes none.
    have kept : ∀ m ∈ Members.sorted js, m.2.Free P (127 - (depth + 1)) := fun m hm =>
      parts m (Members.mem_of_mem_sorted hm)
    refine ⟨?_, ?_, Json.doublesMembers_iff.2 fun m hm => (kept m hm).doubles⟩
    · have values : Json.sortedMembers (Members.sorted js) = Members.sorted js := by
        rw [Json.sortedMembers_eq]
        refine (List.map_congr_left fun m hm => ?_).trans (List.map_id _)
        exact Prod.ext rfl (kept m hm).sorted
      rw [Json.sorted, values, Members.sorted_of_inOrder (Members.inOrder_sorted js)]
    · have deep := Json.depthMembers_le_iff.2 fun m hm => (kept m hm).depth_le
      rw [Json.depth]
      omega
  | .unreadable, _, left, r, h => by cases h
  | .cut, _, left, r, h => by cases h

/-- What is decoded from the trees of items are free values of a text. -/
theorem free_of_itemsToJson (depth : Nat) (hdepth : depth ≤ 127) : (ns : List Node) →
    TextualItems P depth ns → (left : Nat) → (r : List Json × Nat) →
      itemsToJson ns left = .ok r →
        Json.sortedItems r.1 = r.1 ∧ Json.depthItems r.1 ≤ 127 - depth ∧ Json.DoublesItems P r.1
  | [], _, left, r, h => by
    cases h
    exact ⟨rfl, Nat.zero_le _, trivial⟩
  | n :: rest, ht, left, r, h => by
    obtain ⟨⟨j, left₁⟩, hj, h⟩ := except_bind_ok_iff.1 h
    obtain ⟨⟨js, left₂⟩, hjs, h⟩ := except_bind_ok_iff.1 h
    cases h
    have first := free_of_toJson depth hdepth n ht.1 left (j, left₁) hj
    obtain ⟨hsorted, hdeep, hdoubles⟩ :=
      free_of_itemsToJson depth hdepth rest ht.2 left₁ (js, left₂) hjs
    refine ⟨?_, Nat.max_le.2 ⟨first.depth_le, hdeep⟩, first.doubles, hdoubles⟩
    rw [Json.sortedItems, hsorted, first.sorted]

/-- What is decoded from the trees of members are free values of a text. -/
theorem free_of_membersToJson (depth : Nat) (hdepth : depth ≤ 127) :
    (ms : List (Node × Node)) → TextualMembers P depth ms → (left : Nat) →
      (r : List (String × Json) × Nat) → membersToJson ms left = .ok r →
        ∀ m ∈ r.1, m.2.Free P (127 - depth)
  | [], _, left, r, h => by
    cases h
    exact fun _ hm => (nomatch hm)
  | (k, n) :: rest, ht, left, r, h => by
    obtain ⟨⟨name, left₁⟩, -, h⟩ := except_bind_ok_iff.1 h
    obtain ⟨⟨j, left₂⟩, hj, h⟩ := except_bind_ok_iff.1 h
    obtain ⟨⟨js, left₃⟩, hjs, h⟩ := except_bind_ok_iff.1 h
    cases h
    have first := free_of_toJson depth hdepth n ht.1 left₁ (j, left₂) hj
    exact List.forall_mem_cons.2
      ⟨first, free_of_membersToJson depth hdepth rest ht.2 left₂ (js, left₃) hjs⟩

end

end Node

namespace Reading

/-- The double is one for which a numeral stands. -/
def Spelled (y : Float) : Prop :=
  ∃ x : Numeral, x.value? = some (.float y)

/-- A container of a text is one only where it is not nested too deeply. -/
theorem textual_container {depth : Nat} {node : Node} {P : Float → Prop}
    (h : depth ≤ 126 → node.Textual P depth) (whole : Bool) :
    (container depth node whole).Textual P depth := by
  unfold container maxDepth
  split
  · exact h ‹_›
  · split
    · trivial
    · trivial

/-- A word is read as what it stands for, or the text breaks off in it. -/
theorem textual_readWord {word : List Char} {node : Node} {P : Float → Prop} {depth : Nat}
    (h : node.Textual P depth) (s : List Char) : (readWord word node s).1.Textual P depth := by
  unfold readWord
  split
  · exact h
  · trivial

/-- A number is read as that for which a numeral stands, if it stands for one. -/
theorem textual_readNumber (negative : Bool) (s : List Char) (depth : Nat) :
    (readNumber negative s).1.Textual Spelled depth := by
  unfold readNumber
  split
  · trivial
  · rename_i x rest _
    split
    · rename_i n hn
      cases n with
      | whole i fits => trivial
      | float y => exact ⟨x, hn⟩
    · trivial

mutual

/-- What is read is the tree of a text, and its doubles are those of numerals. -/
theorem textual_readNode : (fuel depth : Nat) → (s : List Char) →
    (readNode fuel depth s).1.Textual Spelled depth
  | 0, _, _ => trivial
  | fuel + 1, depth, s => by
    unfold readNode
    split
    · trivial
    · split
      · refine textual_readWord ?_ _
        trivial
      split
      · refine textual_readWord ?_ _
        trivial
      split
      · refine textual_readWord ?_ _
        trivial
      split
      · split <;> trivial
      split
      · exact textual_readNumber _ _ _
      split
      · exact textual_readNumber _ _ _
      split
      · split
        · refine textual_container (fun shallow => ?_) _
          exact ⟨shallow, trivial⟩
        · refine textual_container (fun shallow => ?_) _
          exact ⟨shallow, textual_readItems fuel (depth + 1) _⟩
      split
      · split
        · refine textual_container (fun shallow => ?_) _
          exact ⟨shallow, trivial⟩
        · refine textual_container (fun shallow => ?_) _
          exact ⟨shallow, textual_readMembers fuel (depth + 1) _⟩
      · trivial

/-- The items that are read are trees of a text. -/
theorem textual_readItems : (fuel depth : Nat) → (s : List Char) →
    Node.TextualItems Spelled depth (readItems fuel depth s).1
  | 0, _, _ => trivial
  | fuel + 1, depth, s => by
    have first := textual_readNode fuel depth s
    unfold readItems
    dsimp only
    split
    · exact ⟨first, trivial⟩
    · split
      · exact ⟨first, textual_readItems fuel depth _⟩
      · exact ⟨first, trivial⟩
      · exact ⟨first, trivial⟩

/-- The members that are read have trees of a text. -/
theorem textual_readMembers : (fuel depth : Nat) → (s : List Char) →
    Node.TextualMembers Spelled depth (readMembers fuel depth s).1
  | 0, _, _ => trivial
  | fuel + 1, depth, s => by
    unfold readMembers
    split
    · split
      · trivial
      · dsimp only
        split
        · rename_i rest _
          have first := textual_readNode fuel depth rest
          split
          · exact ⟨first, trivial⟩
          · split
            · exact ⟨first, textual_readMembers fuel depth _⟩
            · exact ⟨first, trivial⟩
            · exact ⟨first, trivial⟩
        · exact ⟨trivial, trivial⟩
    · trivial

end

end Reading

/-- A text is read as the tree of a text. -/
theorem Json.textual_readText (s : List Char) :
    (Json.readText s).1.Textual Reading.Spelled 0 := by
  have read := Reading.textual_readNode (2 * s.length + 2) 0 s
  unfold Json.readText
  dsimp only
  split
  · exact read
  · exact read

namespace GenesisDocument

/-- The states of a document that is decoded from the tree of a text are free values of a text. -/
theorem free_of_decode {P : Float → Prop} {n : Node} {left : Nat} {r : GenesisDocument × Nat}
    (ht : n.Textual P 0) (h : decode n left = .ok r) : ∀ m ∈ r.1.modules, m.2.Free P 126 := by
  cases n with
  | map members origin =>
    cases origin with
    | text whole =>
      obtain ⟨-, left', hmembers⟩ := decode_map_ok h
      exact Node.free_of_membersToJson 1 (by decide) members ht.2 left _ hmembers
    | yaml => exact ht.elim
    | value => exact ht.elim
  | null | bool _ | num _ | str _ | seq _ _ | unreadable | cut => cases h
  | _ => exact ht.elim

/-- The states of a document that was read are free values of a text. -/
theorem free_of_ofBytes {b : ByteArray} {d : GenesisDocument} (h : ofBytes b = .ok d) :
    ∀ m ∈ d.modules, m.2.Free Reading.Spelled 126 := by
  have read := Json.textual_readText (Text.ofUtf8 b)
  unfold ofBytes Codec.ofChars at h
  generalize Json.readText (Text.ofUtf8 b) = tree at read h
  obtain ⟨node, whole⟩ := tree
  obtain ⟨e, hrun, hreturn⟩ := except_bind_ok_iff.1 (mapError_ok_iff.1 h)
  obtain ⟨⟨e', left⟩, hdecode, hfirst⟩ := except_bind_ok_iff.1 hrun
  cases hfirst
  dsimp only at hreturn
  cases whole with
  | false => cases hreturn
  | true =>
    cases hreturn
    exact free_of_decode read hdecode

end GenesisDocument

end TestChain
