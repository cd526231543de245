import TestChain.Proofs.Codec.Documents

/-!
# Ways to make trees

`Json.Trees` is a way to make trees of values in which the order of members is fixed. There are two:
the trees of texts, which keep the order (`Json.Trees.ofText`), and those of free values, in which
members are in the order of their names (`Json.Trees.ofValue`). In both the tree of a value is
decoded as the free value.
-/

namespace TestChain

/-- A way to make trees of values, part by part. -/
structure Json.Trees where
  /-- The tree of a value. -/
  tree : Json → Node
  /-- The members of an object in the order of the tree. -/
  order : Members Json → Members Json
  /-- The tree stands for the value. -/
  spelled : ∀ j : Json, j.Distinct → j.SpelledBy (tree j)
  /-- The tree of a value is decoded as the free value. -/
  toJson_tree : ∀ j, (tree j).toJson = pure j.sorted
  /-- The order keeps the members. -/
  perm_order : ∀ members : Members Json, members.names.Nodup → (order members).Perm members
  /-- An array has the trees of its items. -/
  tree_arr : ∀ items, ∃ o : Origin, o.Complete ∧ tree (.arr items) = .seq (items.map tree) o
  /-- An object has the trees of its members' values. -/
  tree_obj : ∀ members, ∃ o : Origin, o.Complete ∧
    tree (.obj members) = .map ((order members).map fun m => (.str m.1, tree m.2)) o

namespace Node

/-- The items of a text as trees, one by one. -/
theorem ofTextItems_eq (items : List Json) : ofTextItems items = items.map ofText := by
  induction items with
  | nil => rfl
  | cons j rest ih => rw [ofTextItems, ih, List.map_cons]

/-- The members of a text as trees, one by one. -/
theorem ofTextMembers_eq (members : List (String × Json)) :
    ofTextMembers members = members.map fun m => (.str m.1, ofText m.2) := by
  induction members with
  | nil => rfl
  | cons m rest ih =>
    obtain ⟨name, j⟩ := m
    rw [ofTextMembers, ih, List.map_cons]

/-- The items of a free value as trees, one by one. -/
theorem ofItems_eq (items : List Json) : ofItems items = items.map ofJson := by
  induction items with
  | nil => rfl
  | cons j rest ih => rw [ofItems, ih, List.map_cons]

mutual

/-- The tree of a free value is decoded as the value, sorted. -/
theorem toJson_ofJson : (j : Json) → (ofJson j).toJson = pure j.sorted
  | .null => rfl
  | .bool _ => rfl
  | .num _ => rfl
  | .str _ => rfl
  | .arr items => by
    rw [ofJson, toJson, itemsToJson_ofItems items, pure_bind]
    rfl
  | .obj members => by
    rw [ofJson, toJson, membersToJson_ofMembers members, pure_bind]
    rfl

/-- The free values of the trees of items. -/
theorem itemsToJson_ofItems : (items : List Json) →
    itemsToJson (ofItems items) = pure (Json.sortedItems items)
  | [] => rfl
  | j :: rest => by
    rw [ofItems, itemsToJson, toJson_ofJson j, pure_bind, itemsToJson_ofItems rest, pure_bind]
    rfl

/-- The free values of the trees of members. -/
theorem membersToJson_ofMembers : (members : List (String × Json)) →
    membersToJson (ofMembers members) = pure (Json.sortedMembers members)
  | [] => rfl
  | (name, j) :: rest => by
    have key : (Node.str name).text = pure name := rfl
    rw [ofMembers, membersToJson, key, pure_bind, toJson_ofJson j, pure_bind,
      membersToJson_ofMembers rest, pure_bind]
    rfl

end

end Node

namespace Json.Trees

/-- The trees of texts, which keep the order of all members. -/
def ofText : Trees where
  tree := Node.ofText
  order := id
  spelled j _ := Json.spelledBy_ofText j
  toJson_tree := Node.toJson_ofText
  perm_order members _ := .refl members
  tree_arr items := ⟨.text true, .inl rfl, by rw [Node.ofText, Node.ofTextItems_eq]⟩
  tree_obj members := ⟨.text true, .inl rfl, by rw [Node.ofText, Node.ofTextMembers_eq, id]⟩

/-- The trees of free values, in which all members are in the order of their names. -/
def ofValue : Trees where
  tree j := .ofJson j.sorted
  order := Members.sorted
  spelled := Json.spelledBy_ofJson
  toJson_tree j := by rw [Node.toJson_ofJson, Json.sorted_sorted]
  perm_order _ h := Members.perm_sorted h
  tree_arr items := by
    refine ⟨.value, .inr rfl, ?_⟩
    have sorted : sortedItems items = items.map Json.sorted := by
      induction items with
      | nil => rfl
      | cons j rest ih => rw [sortedItems, ih, List.map_cons]
    rw [Json.sorted, Node.ofJson, Node.ofItems_eq, sorted, List.map_map]
    rfl
  tree_obj members := by
    refine ⟨.value, .inr rfl, ?_⟩
    rw [Json.sorted, Node.ofJson, Node.ofMembers_eq, Json.sortedMembers_eq, ← Members.map_sorted,
      List.map_map]
    rfl

end Json.Trees

end TestChain
