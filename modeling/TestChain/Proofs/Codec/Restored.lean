import TestChain.Proofs.Codec.Refused
import TestChain.Proofs.Codec.Trees

/-!
# Values with free parts

A codec that is faithful to a value decodes it from every tree that spells it, whatever the order of
the members. A dictionary keeps the order of its members, so it comes back in the order of the tree.
A codec restores a value as another one (`Codec.Restores`) if the tree of what it writes for the
first is decoded as the second: dictionaries of free values come back in the order of the tree
(`Codec.restores_dictionary`), and records of restored values are restored
(`Codec.restores_record`).
-/

namespace TestChain

open Json (Trees)

variable {α β : Type} {t : Trees} {d : Nat}

/-- The codec writes the first value with at most `d` containers nested in one another and decodes
the tree of what it wrote as the second. -/
structure Codec.Restores (c : Codec α) (t : Trees) (d : Nat) (a b : α) : Prop where
  /-- The first value is written tidily. -/
  tidy : (c.encode a).Tidy d
  /-- The second value is decoded from what was written. -/
  decode : c.decode (t.tree (c.encode a)) = pure b

/-- A faithful codec restores a value as it was. -/
theorem Codec.Faithful.restores {c : Codec α} {a : α} (h : c.Faithful d a) :
    c.Restores t d a a :=
  ⟨h.tidy, h.decode _ (t.spelled _ h.tidy.distinct)⟩

/-! ## Dictionaries -/

/-- Members of different names that are all free values are decoded in the order of the tree. -/
theorem Codec.decodeMembers_trees {sofar rest : Members Json}
    (hnodup : (Members.names (sofar ++ rest)).Nodup) (hfree : ∀ m ∈ rest, m.2.sorted = m.2) :
    Codec.json.decodeMembers sofar (rest.map fun m => (.str m.1, t.tree m.2)) =
      pure (sofar ++ rest) := by
  induction rest generalizing sofar with
  | nil =>
    rw [List.append_nil]
    rfl
  | cons m rest ih =>
    obtain ⟨name, j⟩ := m
    have new : name ∉ Members.names sofar := by
      simp only [Members.names, List.map_append, List.map_cons] at hnodup ⊢
      exact fun hin => (List.nodup_append.1 hnodup).2.2 name hin name List.mem_cons_self rfl
    have key : (Node.str name).text = pure name := rfl
    have value : Codec.json.decode (t.tree j) = pure j := by
      have free : j.sorted = j := hfree _ List.mem_cons_self
      show (t.tree j).toJson = _
      rw [t.toJson_tree, free]
    have split : sofar ++ [(name, j)] ++ rest = sofar ++ (name, j) :: rest := by
      rw [List.append_assoc]
      rfl
    rw [List.map_cons, decodeMembers, key, pure_bind, value, pure_bind,
      Members.put_of_not_mem j new, ih (split ▸ hnodup) fun m hm =>
        hfree m (List.mem_cons_of_mem _ hm), split]

/-- Dictionaries of free values are restored in the order of the tree. -/
theorem Codec.restores_dictionary {o : Members Json} (hnodup : o.names.Nodup)
    (htidy : ∀ m ∈ o, m.2.Tidy d) (hfree : ∀ m ∈ o, m.2.sorted = m.2) :
    (Codec.dictionary .json).Restores t (d + 1) o (t.order o) := by
  have written : (Codec.dictionary .json).encode o = .obj o :=
    congrArg Json.obj (List.map_id o)
  have perm := t.perm_order o hnodup
  obtain ⟨origin, complete, tree⟩ := t.tree_obj o
  have members : Codec.json.decodeMembers [] ((t.order o).map fun m => (.str m.1, t.tree m.2)) =
      pure (t.order o) :=
    decodeMembers_trees ((perm.map Prod.fst).symm.nodup hnodup) fun m hm =>
      hfree m (perm.mem_iff.1 hm)
  refine ⟨written ▸ Json.tidy_obj hnodup htidy, ?_⟩
  rw [written, tree]
  show (origin.within do
    let as ← Codec.json.decodeMembers [] ((t.order o).map fun m => (.str m.1, t.tree m.2))
    origin.close
    return as : Decoding (Members Json)) = _
  rw [members, pure_bind, complete.close, pure_bind]
  exact Origin.within_pure origin _

/-! ## Records -/

namespace Fields

/-- The description writes the first value tidily, and from the trees of its members the second one
is made up. -/
structure Restores (f : Fields α) (t : Trees) (d : Nat) (a b : α) : Prop where
  /-- The members are tidy. -/
  tidy : ∀ m ∈ f.write a, m.2.Tidy d
  /-- The slots are filled from the trees of the members. -/
  filled : ∃ slots, f.FilledBy (fun j n => n = t.tree j) a b slots

/-- A field that is always written is restored. -/
theorem restores_single {name : String} {c : Codec α} {missing short : Option α} {a b : α}
    (h : c.Restores t d a b) : (single name c missing short fun _ => false).Restores t d a b := by
  refine ⟨List.forall_mem_singleton.2 h.tidy, _, filledBy_written ?_ Bool.false_ne_true⟩
  rintro n rfl
  exact h.decode

/-- The fields of two descriptions without a name in common are restored together. -/
theorem Restores.and {f : Fields α} {g : Fields β} {a a' : α} {b b' : β}
    (hf : f.Restores t d a a') (hg : g.Restores t d b b') (apart : ∀ n ∈ f.names, n ∉ g.names) :
    (f.and g).Restores t d (a, b) (a', b') := by
  obtain ⟨s, hs⟩ := hf.filled
  obtain ⟨u, hu⟩ := hg.filled
  exact ⟨List.forall_mem_append.2 ⟨hf.tidy, hg.tidy⟩, _, hs.and hu apart⟩

/-- The fields of a record are restored as those of the values it is made from. -/
theorem Restores.map {f : Fields α} {make : α → β} {view : β → α} {a : α} {b b' : β}
    (h : f.Restores t d (view b) a) (hmake : make a = b') :
    (f.map make view).Restores t d b b' := by
  obtain ⟨s, hs⟩ := h.filled
  exact ⟨h.tidy, s, hs.map hmake⟩

end Fields

/-- A record is restored if its fields are. -/
theorem Codec.restores_record {f : Fields α} {a b : α} (h : f.Restores t d a b) :
    (Codec.record f).Restores t (d + 1) a b := by
  obtain ⟨slots, hs⟩ := h.filled
  obtain ⟨o, complete, tree⟩ := t.tree_obj (f.write a)
  refine ⟨Json.tidy_obj hs.nodup h.tidy, ?_⟩
  show f.decode (t.tree (.obj (f.write a))) = _
  rw [tree]
  refine hs.decode ((t.perm_order _ hs.nodup).map _) ?_ (fun m hm => ?_) complete
  · rw [Members.names, List.map_map, List.map_map]
    rfl
  · obtain ⟨⟨name, j⟩, hmem, rfl⟩ := List.mem_map.1 hm
    exact ⟨name, j, rfl, hmem, rfl⟩

/-! ## Refused parts -/

/-- A list is refused if an item of it is. -/
theorem Codec.refused_list_tree {c : Codec α} {as : List α} {a : α} (hmem : a ∈ as)
    (h : (c.decode (t.tree (c.encode a))).Refused) :
    (c.list.decode (t.tree (c.list.encode as))).Refused := by
  obtain ⟨o, -, tree⟩ := t.tree_arr (as.map c.encode)
  show (c.list.decode (t.tree (.arr (as.map c.encode)))).Refused
  rw [tree]
  exact refused_decodeList (List.mem_map_of_mem (List.mem_map_of_mem hmem)) h o

/-- A record is refused if the value of a field is. -/
theorem Codec.refused_record_tree {f : Fields α} {a : α} {name : String} {j : Json}
    (hnodup : (Members.names (f.write a)).Nodup) (hmem : (name, j) ∈ f.write a)
    (h : f.Refuses name (t.tree j)) :
    ((Codec.record f).decode (t.tree ((Codec.record f).encode a))).Refused := by
  obtain ⟨o, -, tree⟩ := t.tree_obj (f.write a)
  show (f.decode (t.tree (.obj (f.write a)))).Refused
  rw [tree]
  refine h.decode (List.mem_map.2 ⟨(name, j), ?_, rfl⟩) o
  exact (t.perm_order _ hnodup).mem_iff.2 hmem

/-! ## Reading back -/

namespace Codec

variable {c : Codec α} {a b r : α} {p : Prop}

/-- A value comes back from its free value exactly if it is restored, where it is refused else. -/
theorem ofJson_toJson_iff (good : p → c.Restores .ofValue d a b)
    (bad : ¬p → (c.decode (Trees.ofValue.tree (c.encode a))).Refused) :
    c.ofJson (c.toJson a) = .ok r ↔ r = b ∧ p := by
  by_cases h : p
  · have decoded : c.decode (.ofJson (c.toJson a)) = pure b := (good h).decode
    have read : c.ofJson (c.toJson a) = .ok b := by
      unfold ofJson
      rw [decoded]
      rfl
    rw [read, Except.ok.injEq, eq_comm, and_iff_left h]
  · obtain ⟨e, he⟩ := exists_error_ofJson (bad h)
    have read : c.ofJson (c.toJson a) = .error e := he
    rw [read]
    exact iff_of_false (fun h => (nomatch h)) fun hr => h hr.2

/-- A text of a value comes back exactly if the value is restored, where it is refused else. -/
theorem ofText_text_iff (tidy : (c.encode a).Tidy 127) (good : p → c.Restores .ofText d a b)
    (bad : ¬p → (c.decode (Trees.ofText.tree (c.encode a))).Refused) :
    c.ofText (c.text a) = .ok r ↔ r = b ∧ p := by
  have chars : (c.text a).toList = (c.encode a).compactChars := String.toList_ofList
  have tree := Json.readText_compactChars tidy.noFloat tidy.depth_le
  unfold ofText
  rw [chars]
  by_cases h : p
  · have decoded : c.decode (.ofText (c.encode a)) = pure b := (good h).decode
    have read : c.ofChars (c.encode a).compactChars = .ok b := by
      unfold ofChars
      rw [tree]
      dsimp only
      rw [decoded]
      rfl
    rw [read, Except.ok.injEq, eq_comm, and_iff_left h]
  · have refused : (c.decode (Json.readText (c.encode a).compactChars).1).Refused := by
      rw [tree]
      exact bad h
    obtain ⟨e, read⟩ := exists_error_ofChars refused
    rw [read]
    exact iff_of_false (fun h => (nomatch h)) fun hr => h hr.2

end Codec

end TestChain
