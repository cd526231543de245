import TestChain.Codec.Record
import TestChain.Proofs.Json.Reading
import TestChain.Proofs.Members

/-!
# Trees that spell a value

A written value comes back as the tree of its text, with the members of every object in order, or as
the tree of a free value, whose members are in the order of their names. `Json.SpelledBy` is what
the two have in common, and decoders need no more: `spelledBy_ofText`, `spelledBy_ofJson`. Both ask
for values that are tidy (`Json.Tidy`): no doubles, no name twice in an object, a limited depth.
-/

namespace TestChain

/-- The container has all its parts, and they are those of a JSON value. -/
def Origin.Complete (o : Origin) : Prop :=
  o = .text true ∨ o = .value

/-- The end of a complete container is there. -/
theorem Origin.Complete.close {o : Origin} (h : o.Complete) : o.close = pure () := by
  rcases h with rfl | rfl <;> rfl

/-- Parts that are decoded without a fault are decoded so in every container. -/
theorem Origin.within_pure {α : Type} (o : Origin) (a : α) :
    o.within (pure a : Decoding α) = pure a := by
  funext left
  cases o <;> rfl

namespace Json

/-! ## Spelling -/

mutual

/-- The tree stands for the value; the members of objects may be in any order. -/
def SpelledBy : Json → Node → Prop
  | .null, n => n = .null
  | .bool b, n => n = .bool b
  | .num x, n => n = .num x
  | .str s, n => n = .str s
  | .arr items, n => ∃ ns o, n = .seq ns o ∧ o.Complete ∧ ItemsSpelledBy items ns
  | .obj members, n =>
    ∃ ns o, n = .map ns o ∧ o.Complete ∧ ∃ ms, ns.Perm ms ∧ MembersSpelledBy members ms

/-- The trees stand for the items, in order. -/
def ItemsSpelledBy : List Json → List Node → Prop
  | [], ns => ns = []
  | j :: rest, ns => ∃ n after, ns = n :: after ∧ SpelledBy j n ∧ ItemsSpelledBy rest after

/-- The trees stand for the members, in order. -/
def MembersSpelledBy : List (String × Json) → List (Node × Node) → Prop
  | [], ms => ms = []
  | (name, j) :: rest, ms =>
    ∃ n after, ms = (.str name, n) :: after ∧ SpelledBy j n ∧ MembersSpelledBy rest after

end

/-- The tree of a member is one of the trees that spell the members. -/
theorem MembersSpelledBy.exists_of_mem {members : List (String × Json)} {ms : List (Node × Node)}
    (h : MembersSpelledBy members ms) {m : Node × Node} (hm : m ∈ ms) :
    ∃ name j, m.1 = .str name ∧ (name, j) ∈ members ∧ SpelledBy j m.2 := by
  induction members generalizing ms with
  | nil =>
    rw [MembersSpelledBy] at h
    rw [h] at hm
    cases hm
  | cons first rest ih =>
    obtain ⟨name, j⟩ := first
    rw [MembersSpelledBy] at h
    obtain ⟨n, after, rfl, hj, hrest⟩ := h
    rcases List.mem_cons.1 hm with rfl | hm
    · exact ⟨name, j, rfl, List.mem_cons_self, hj⟩
    · obtain ⟨name, j, hname, hmem, hj⟩ := ih hrest hm
      exact ⟨name, j, hname, List.mem_cons_of_mem _ hmem, hj⟩

/-- The keys of the trees that spell members are the members' names. -/
theorem MembersSpelledBy.keys {members : List (String × Json)} {ms : List (Node × Node)}
    (h : MembersSpelledBy members ms) :
    ms.map Prod.fst = (Members.names members).map Node.str := by
  induction members generalizing ms with
  | nil =>
    rw [MembersSpelledBy] at h
    rw [h]
    rfl
  | cons first rest ih =>
    obtain ⟨name, j⟩ := first
    rw [MembersSpelledBy] at h
    obtain ⟨n, after, rfl, -, hrest⟩ := h
    simp only [List.map_cons, Members.names] at ih ⊢
    rw [ih hrest]

mutual

/-- A value is spelled by the tree of its text. -/
theorem spelledBy_ofText : (j : Json) → j.SpelledBy (.ofText j)
  | .null => rfl
  | .bool _ => rfl
  | .num _ => rfl
  | .str _ => rfl
  | .arr items => by
    rw [SpelledBy]
    exact ⟨_, _, rfl, .inl rfl, itemsSpelledBy_ofText items⟩
  | .obj members => by
    rw [SpelledBy]
    exact ⟨_, _, rfl, .inl rfl, _, .refl _, membersSpelledBy_ofText members⟩

/-- Items are spelled by the trees of their texts. -/
theorem itemsSpelledBy_ofText : (items : List Json) →
    ItemsSpelledBy items (Node.ofTextItems items)
  | [] => rfl
  | j :: rest => by
    rw [ItemsSpelledBy]
    exact ⟨_, _, rfl, spelledBy_ofText j, itemsSpelledBy_ofText rest⟩

/-- Members are spelled by the trees of their texts. -/
theorem membersSpelledBy_ofText : (members : List (String × Json)) →
    MembersSpelledBy members (Node.ofTextMembers members)
  | [] => rfl
  | (name, j) :: rest => by
    rw [MembersSpelledBy]
    exact ⟨_, _, rfl, spelledBy_ofText j, membersSpelledBy_ofText rest⟩

end

/-! ## Tidy values -/

mutual

/-- No object in the value has a name twice. -/
def Distinct : Json → Prop
  | .arr items => DistinctItems items
  | .obj members => (Members.names members).Nodup ∧ DistinctMembers members
  | _ => True

/-- No object in the items has a name twice. -/
def DistinctItems : List Json → Prop
  | [] => True
  | j :: rest => j.Distinct ∧ DistinctItems rest

/-- No object in the members' values has a name twice. -/
def DistinctMembers : List (String × Json) → Prop
  | [] => True
  | (_, j) :: rest => j.Distinct ∧ DistinctMembers rest

end

/-- The value can be written and read back: it has no doubles, no object in it has a name twice, and
at most `d` containers are nested in one another. -/
structure Tidy (d : Nat) (j : Json) : Prop where
  /-- There are no doubles. -/
  noFloat : j.NoFloat
  /-- No object has a name twice. -/
  distinct : j.Distinct
  /-- The depth is limited. -/
  depth_le : j.depth ≤ d

/-- A limit that is higher holds as well. -/
theorem Tidy.mono {d e : Nat} {j : Json} (h : j.Tidy d) (hde : d ≤ e) : j.Tidy e :=
  ⟨h.noFloat, h.distinct, Nat.le_trans h.depth_le hde⟩

/-- The absent value is tidy. -/
theorem tidy_null (d : Nat) : Json.null.Tidy d := ⟨trivial, trivial, Nat.zero_le _⟩

/-- Truth values are tidy. -/
theorem tidy_bool (d : Nat) (b : Bool) : (Json.bool b).Tidy d := ⟨trivial, trivial, Nat.zero_le _⟩

/-- Whole numbers are tidy. -/
theorem tidy_whole (d : Nat) (i : Int) (fits : fitsWord i) : (Json.num (.whole i fits)).Tidy d :=
  ⟨trivial, trivial, Nat.zero_le _⟩

/-- Texts are tidy. -/
theorem tidy_str (d : Nat) (s : String) : (Json.str s).Tidy d := ⟨trivial, trivial, Nat.zero_le _⟩

/-- An array of tidy items is tidy. -/
theorem tidy_arr {d : Nat} {items : List Json} (h : ∀ j ∈ items, j.Tidy d) :
    (Json.arr items).Tidy (d + 1) := by
  have parts : NoFloatItems items ∧ DistinctItems items ∧ depthItems items ≤ d := by
    induction items with
    | nil => exact ⟨trivial, trivial, Nat.zero_le _⟩
    | cons j rest ih =>
      obtain ⟨hf, hn, hd⟩ := ih fun k hk => h k (List.mem_cons_of_mem _ hk)
      have hj := h j List.mem_cons_self
      exact ⟨⟨hj.noFloat, hf⟩, ⟨hj.distinct, hn⟩, Nat.max_le.2 ⟨hj.depth_le, hd⟩⟩
  refine ⟨parts.1, parts.2.1, ?_⟩
  rw [depth]
  have := parts.2.2
  omega

/-- An object of tidy members with distinct names is tidy. -/
theorem tidy_obj {d : Nat} {members : List (String × Json)} (hn : (Members.names members).Nodup)
    (h : ∀ m ∈ members, m.2.Tidy d) : (Json.obj members).Tidy (d + 1) := by
  have parts : NoFloatMembers members ∧ DistinctMembers members ∧ depthMembers members ≤ d := by
    clear hn
    induction members with
    | nil => exact ⟨trivial, trivial, Nat.zero_le _⟩
    | cons m rest ih =>
      obtain ⟨hf, hn, hd⟩ := ih fun k hk => h k (List.mem_cons_of_mem _ hk)
      have hj := h m List.mem_cons_self
      exact ⟨⟨hj.noFloat, hf⟩, ⟨hj.distinct, hn⟩, Nat.max_le.2 ⟨hj.depth_le, hd⟩⟩
  refine ⟨parts.1, ⟨hn, parts.2.1⟩, ?_⟩
  rw [depth]
  have := parts.2.2
  omega

end Json

/-! ## Free values -/

namespace Node

/-- The members of a free value as trees, one by one. -/
theorem ofMembers_eq (members : List (String × Json)) :
    ofMembers members = members.map fun m => (.str m.1, ofJson m.2) := by
  induction members with
  | nil => rfl
  | cons m rest ih =>
    obtain ⟨name, j⟩ := m
    rw [ofMembers, ih]
    rfl

end Node

namespace Json

/-- Sorting the members' values keeps the members' names. -/
theorem names_sortedMembers (members : List (String × Json)) :
    Members.names (sortedMembers members) = Members.names members := by
  induction members with
  | nil => rfl
  | cons m rest ih =>
    obtain ⟨name, j⟩ := m
    simp only [Members.names, sortedMembers, List.map_cons] at ih ⊢
    rw [ih]

mutual

/-- A value without a name twice is spelled by the tree of its free value. -/
theorem spelledBy_ofJson : (j : Json) → j.Distinct → j.SpelledBy (.ofJson j.sorted)
  | .null, _ => rfl
  | .bool _, _ => rfl
  | .num _, _ => rfl
  | .str _, _ => rfl
  | .arr items, h => by
    rw [SpelledBy]
    exact ⟨_, _, rfl, .inr rfl, itemsSpelledBy_ofJson items h⟩
  | .obj members, h => by
    rw [SpelledBy]
    refine ⟨_, _, rfl, .inr rfl, Node.ofMembers (sortedMembers members), ?_,
      membersSpelledBy_ofJson members h.2⟩
    rw [Node.ofMembers_eq, Node.ofMembers_eq]
    exact (Members.perm_sorted (names_sortedMembers members ▸ h.1)).map _

/-- Items without a name twice are spelled by the trees of their free values. -/
theorem itemsSpelledBy_ofJson : (items : List Json) → DistinctItems items →
    ItemsSpelledBy items (Node.ofItems (sortedItems items))
  | [], _ => rfl
  | j :: rest, h => by
    rw [ItemsSpelledBy]
    exact ⟨_, _, rfl, spelledBy_ofJson j h.1, itemsSpelledBy_ofJson rest h.2⟩

/-- Members without a name twice are spelled by the trees of their free values. -/
theorem membersSpelledBy_ofJson : (members : List (String × Json)) → DistinctMembers members →
    MembersSpelledBy members (Node.ofMembers (sortedMembers members))
  | [], _ => rfl
  | (name, j) :: rest, h => by
    rw [MembersSpelledBy]
    exact ⟨_, _, rfl, spelledBy_ofJson j h.1, membersSpelledBy_ofJson rest h.2⟩

end

end Json

end TestChain
