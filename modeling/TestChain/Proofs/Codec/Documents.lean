import TestChain.Genesis.Document
import TestChain.Proofs.Codec.Faithful
import TestChain.Proofs.Text.Utf8

/-!
# Documents lose nothing

A free value keeps its members in the order of their names, so putting them in order again changes
nothing (`Json.sorted_sorted`). A document whose states are free values is therefore read back from
its text (`GenesisDocument.ofBytes_text`), and a state that was put into a document is found in it
(`GenesisDocument.get_insert`).
-/

namespace TestChain

namespace Json

/-- Members' values are sorted one by one. -/
theorem sortedMembers_eq (members : List (String × Json)) :
    sortedMembers members = members.map fun m => (m.1, m.2.sorted) := by
  induction members with
  | nil => rfl
  | cons m rest ih =>
    obtain ⟨name, j⟩ := m
    rw [sortedMembers, ih, List.map_cons]

mutual

/-- Sorting a free value changes nothing. -/
theorem sorted_sorted : (j : Json) → j.sorted.sorted = j.sorted
  | .null => rfl
  | .bool _ => rfl
  | .num _ => rfl
  | .str _ => rfl
  | .arr items => by
    rw [sorted, sorted, sortedItems_sortedItems items]
  | .obj members => by
    rw [sorted, sorted, sortedMembers_eq (Members.sorted _), Members.map_sorted, ← sortedMembers_eq,
      sortedMembers_sortedMembers members, Members.sorted_of_inOrder (Members.inOrder_sorted _)]

/-- Sorting sorted items changes nothing. -/
theorem sortedItems_sortedItems : (items : List Json) →
    sortedItems (sortedItems items) = sortedItems items
  | [] => rfl
  | j :: rest => by
    rw [sortedItems, sortedItems, sorted_sorted j, sortedItems_sortedItems rest]

/-- Sorting sorted values of members changes nothing. -/
theorem sortedMembers_sortedMembers : (members : List (String × Json)) →
    sortedMembers (sortedMembers members) = sortedMembers members
  | [] => rfl
  | (name, j) :: rest => by
    rw [sortedMembers, sortedMembers, sorted_sorted j, sortedMembers_sortedMembers rest]

end

/-- The items of a tidy array are tidy. -/
theorem Tidy.items {d : Nat} {items : List Json} (h : (Json.arr items).Tidy d) :
    ∃ e, d = e + 1 ∧ ∀ j ∈ items, j.Tidy e := by
  have depth := h.depth_le
  rw [Json.depth] at depth
  refine ⟨d - 1, by omega, ?_⟩
  have parts : NoFloatItems items ∧ DistinctItems items ∧ depthItems items ≤ d - 1 :=
    ⟨h.noFloat, h.distinct, by omega⟩
  -- What is known of an array and its depth is known of its items, part by part.
  clear h depth
  induction items with
  | nil => exact fun _ h => (nomatch h)
  | cons j rest ih =>
    obtain ⟨hf, hn, hd⟩ := parts
    have hd := Nat.max_le.1 hd
    intro k hk
    rcases List.mem_cons.1 hk with rfl | hk
    · exact ⟨hf.1, hn.1, hd.1⟩
    · exact ih ⟨hf.2, hn.2, hd.2⟩ k hk

/-- The members of a tidy object have distinct names and tidy values. -/
theorem Tidy.members {d : Nat} {members : List (String × Json)} (h : (Json.obj members).Tidy d) :
    ∃ e, d = e + 1 ∧ (Members.names members).Nodup ∧ ∀ m ∈ members, m.2.Tidy e := by
  have depth := h.depth_le
  rw [Json.depth] at depth
  refine ⟨d - 1, by omega, h.distinct.1, ?_⟩
  have parts : NoFloatMembers members ∧ DistinctMembers members ∧ depthMembers members ≤ d - 1 :=
    ⟨h.noFloat, h.distinct.2, by omega⟩
  clear h depth
  induction members with
  | nil => exact fun _ h => (nomatch h)
  | cons m rest ih =>
    obtain ⟨hf, hn, hd⟩ := parts
    have hd := Nat.max_le.1 hd
    intro k hk
    rcases List.mem_cons.1 hk with rfl | hk
    · exact ⟨hf.1, hn.1, hd.1⟩
    · exact ih ⟨hf.2, hn.2, hd.2⟩ k hk

mutual

/-- A tidy value is tidy when it is sorted. -/
theorem tidy_sorted (d : Nat) : (j : Json) → j.Tidy d → j.sorted.Tidy d
  | .null, h => h
  | .bool _, h => h
  | .num _, h => h
  | .str _, h => h
  | .arr items, h => by
    obtain ⟨e, rfl, hitems⟩ := h.items
    exact tidy_arr (tidy_sortedItems e items hitems)
  | .obj members, h => by
    obtain ⟨e, rfl, hnodup, hmembers⟩ := h.members
    rw [← names_sortedMembers] at hnodup
    have perm := Members.perm_sorted hnodup
    refine tidy_obj ((perm.map Prod.fst).symm.nodup hnodup) fun m hm => ?_
    exact tidy_sortedMembers e members hmembers m (perm.mem_iff.1 hm)

/-- Tidy items are tidy when they are sorted. -/
theorem tidy_sortedItems (d : Nat) : (items : List Json) → (∀ j ∈ items, j.Tidy d) →
    ∀ j ∈ sortedItems items, j.Tidy d
  | [], _ => fun _ h => (nomatch h)
  | j :: rest, h => fun k hk => by
    rw [sortedItems] at hk
    rcases List.mem_cons.1 hk with rfl | hk
    · exact tidy_sorted d j (h j List.mem_cons_self)
    · exact tidy_sortedItems d rest (fun l hl => h l (List.mem_cons_of_mem _ hl)) k hk

/-- Tidy values of members are tidy when they are sorted. -/
theorem tidy_sortedMembers (d : Nat) : (members : List (String × Json)) →
    (∀ m ∈ members, m.2.Tidy d) → ∀ m ∈ sortedMembers members, m.2.Tidy d
  | [], _ => fun _ h => (nomatch h)
  | (name, j) :: rest, h => fun m hm => by
    rw [sortedMembers] at hm
    rcases List.mem_cons.1 hm with rfl | hm
    · exact tidy_sorted d j (h (name, j) List.mem_cons_self)
    · exact tidy_sortedMembers d rest (fun k hk => h k (List.mem_cons_of_mem _ hk)) m hm

end

end Json

namespace Node

mutual

/-- The free value that the tree of a text stands for is the value of the text, sorted. -/
theorem toJson_ofText : (j : Json) → (ofText j).toJson = pure j.sorted
  | .null => rfl
  | .bool _ => rfl
  | .num _ => rfl
  | .str _ => rfl
  | .arr items => by
    rw [ofText, toJson, itemsToJson_ofText items, pure_bind]
    rfl
  | .obj members => by
    rw [ofText, toJson, membersToJson_ofText members, pure_bind]
    rfl

/-- The free values of the items of a text. -/
theorem itemsToJson_ofText : (items : List Json) →
    itemsToJson (ofTextItems items) = pure (Json.sortedItems items)
  | [] => rfl
  | j :: rest => by
    rw [ofTextItems, itemsToJson, toJson_ofText j, pure_bind, itemsToJson_ofText rest, pure_bind]
    rfl

/-- The free values of the members of a text. -/
theorem membersToJson_ofText : (members : List (String × Json)) →
    membersToJson (ofTextMembers members) = pure (Json.sortedMembers members)
  | [] => rfl
  | (name, j) :: rest => by
    have key : (Node.str name).text = pure name := rfl
    rw [ofTextMembers, membersToJson, key, pure_bind, toJson_ofText j, pure_bind,
      membersToJson_ofText rest, pure_bind]
    rfl

end

end Node

namespace GenesisDocument

/-! ## Texts -/

/-- A module of a new name is added at the end. -/
theorem addEntry_of_not_mem {d : GenesisDocument} {name : String} (h : name ∉ d.modules.names)
    (state : Json) : ∃ e, addEntry d (name, state) = .ok e ∧
      e.modules = d.modules ++ [(name, state)] := by
  refine ⟨d.insertRaw name state, ?_, Members.put_of_not_mem state h⟩
  unfold addEntry contains getRaw?
  dsimp only
  rw [Members.lookup_of_not_mem h]
  rfl

/-- Modules of different new names are added one after the other. -/
theorem foldlM_addEntry {rest : Members Json} {d : GenesisDocument}
    (h : (Members.names (d.modules ++ rest)).Nodup) :
    ∃ e, rest.foldlM addEntry d = .ok e ∧ e.modules = d.modules ++ rest := by
  induction rest generalizing d with
  | nil => exact ⟨d, rfl, (List.append_nil _).symm⟩
  | cons m rest ih =>
    obtain ⟨name, j⟩ := m
    -- The names of the modules so far and of those to come are all distinct.
    have new : name ∉ d.modules.names := by
      simp only [Members.names, List.map_append, List.map_cons] at h ⊢
      exact fun hin => (List.nodup_append.1 h).2.2 name hin name List.mem_cons_self rfl
    obtain ⟨next, hnext, hmodules⟩ := addEntry_of_not_mem new j
    have split : next.modules ++ rest = d.modules ++ (name, j) :: rest := by
      rw [hmodules, List.append_assoc]
      rfl
    obtain ⟨e, he, hrest⟩ := ih (d := next) (split ▸ h)
    refine ⟨e, ?_, hrest.trans split⟩
    rw [List.foldlM_cons, hnext]
    exact he

/-- The modules of a document, one after the other, make up the document. -/
theorem ofEntries_modules (d : GenesisDocument) : ofEntries d.modules = .ok d := by
  obtain ⟨e, he, hmodules⟩ := foldlM_addEntry (d := empty) d.nodup
  have same : e = d := by
    obtain ⟨ms, hms⟩ := d
    obtain ⟨es, hes⟩ := e
    cases (hmodules : es = ms)
    rfl
  rw [ofEntries, he, same]

/-- The states of a document are free values that can be written and read back. -/
def Tidy (d : GenesisDocument) : Prop :=
  ∀ m ∈ d.modules, m.2.Tidy 126 ∧ m.2.sorted = m.2

/-- The tree of an object is decoded as the document of its members' free values. -/
theorem decode_ofText {d : GenesisDocument} {members : Members Json}
    (h : d.modules = Json.sortedMembers members) : decode (.ofText (.obj members)) = pure d := by
  have content : Node.content (.ofText (.obj members)) =
      pure (.map (Node.ofTextMembers members) (.text true)) := rfl
  unfold decode
  rw [content, pure_bind]
  dsimp only
  rw [Node.membersToJson_ofText, pure_bind, ← h, ofEntries_modules]
  exact Origin.within_pure _ d

/-- A text that is read as an object is that of the document of the members' free values. -/
theorem ofBytes_of_readText {d : GenesisDocument} {s : String} {members : Members Json}
    (h : d.modules = Json.sortedMembers members)
    (hread : Json.readText s.toList = (.ofText (.obj members), true)) :
    ofBytes s.toUTF8 = .ok d := by
  have decoded : codec.decode (.ofText (.obj members)) = pure d := decode_ofText h
  unfold ofBytes Codec.ofChars
  rw [Text.ofUtf8_toUTF8, hread]
  dsimp only
  rw [decoded]
  rfl

/-- A tidy document is read back from its text. -/
theorem ofBytes_text {d : GenesisDocument} (h : d.Tidy) : ofBytes d.text.toUTF8 = .ok d := by
  have tidy : (codec.encode d).Tidy 127 := Json.tidy_obj d.nodup fun m hm => (h m hm).1
  -- The states are read as they were written, since they were sorted before.
  have states : Json.sortedMembers d.modules = d.modules := by
    rw [Json.sortedMembers_eq]
    refine (List.map_congr_left fun m hm => ?_).trans (List.map_id _)
    exact Prod.ext rfl (h m hm).2
  refine ofBytes_of_readText states.symm ?_
  unfold text Json.pretty
  rw [String.toList_ofList]
  exact Json.readText_prettyChars tidy.noFloat tidy.depth_le

/-! ## States -/

/-- A state put into a document is found under its name, and other states stay. -/
theorem getRaw?_insertRaw (d : GenesisDocument) (name other : String) (state : Json) :
    (d.insertRaw name state).getRaw? other =
      if other = name then some state else d.getRaw? other :=
  Members.lookup_put name other state d.modules

variable {α : Type} {c : Codec α} {depth : Nat} {a : α}

/-- A state given by its type is decoded from the document that it was put into. -/
theorem get_insert (h : c.Faithful depth a) (d : GenesisDocument) (name : String) :
    (d.insert name c a).get name c = .ok a := by
  unfold get insert
  rw [getRaw?_insertRaw, if_pos rfl]
  dsimp only
  rw [decodeState, h.ofJson]
  rfl

/-- A document stays tidy when a state given by its type is put into it. -/
theorem Tidy.insert {d : GenesisDocument} (hd : d.Tidy) (h : c.Faithful depth a)
    (hdepth : depth ≤ 126) (name : String) : (d.insert name c a).Tidy := by
  have state : (c.toJson a).Tidy 126 ∧ (c.toJson a).sorted = c.toJson a :=
    ⟨Json.tidy_sorted 126 _ (h.tidy.mono hdepth), Json.sorted_sorted _⟩
  intro m hm
  rcases Members.mem_put hm with rfl | hm
  · exact state
  · exact hd m hm

/-- The states of other modules are decoded as before. -/
theorem get_insert_of_ne {β : Type} {name other : String} (hne : other ≠ name)
    (d : GenesisDocument) (c : Codec α) (a : α) (e : Codec β) :
    (d.insert name c a).get other e = d.get other e := by
  unfold get insert
  rw [getRaw?_insertRaw, if_neg hne]

/-- What is there is taken from the document, and no other value stands for it. -/
theorem getD_of_get {d : GenesisDocument} {name : String} (h : d.get name c = .ok a) (b : α) :
    d.getD name c b = .ok a := by
  unfold get at h
  unfold getD
  split at h
  · exact h
  · cases h

end GenesisDocument

end TestChain
