import Mathlib.Data.List.Perm.Basic
import TestChain.Codec.Union
import TestChain.Proofs.Codec.Documents
import TestChain.Proofs.Codec.Refused

/-!
# Tagged unions lose nothing

A tagged union is decoded in two steps: the tag is taken from among the members, wherever it stands,
and what is left is decoded as the choice that the tag selects. What is left has its types settled
and is no text any more, but it spells the other members as before (`Json.exists_buffered`,
`Codec.exists_takeTag`). So a union is faithful to the values of choices that are
(`Codec.faithful_union`), and refuses those of choices that refuse them (`Codec.refused_union`).
-/

namespace TestChain

namespace Json

/-! ## Members in any order -/

/-- The tree of the key is the member's name, and the other tree stands for its value. -/
def MemberSpelledBy (m : String × Json) (n : Node × Node) : Prop :=
  n.1 = .str m.1 ∧ m.2.SpelledBy n.2

/-- Trees stand for members in order if each stands for its own. -/
theorem membersSpelledBy_iff {members : List (String × Json)} {ns : List (Node × Node)} :
    MembersSpelledBy members ns ↔ List.Forall₂ MemberSpelledBy members ns := by
  induction members generalizing ns with
  | nil => rw [MembersSpelledBy, List.forall₂_nil_left_iff]
  | cons m rest ih =>
    obtain ⟨name, j⟩ := m
    rw [MembersSpelledBy, List.forall₂_cons_left_iff]
    constructor
    · rintro ⟨n, after, rfl, hn, hafter⟩
      exact ⟨_, _, ⟨rfl, hn⟩, ih.1 hafter, rfl⟩
    · rintro ⟨⟨k, n⟩, after, ⟨hk, hn⟩, hafter, rfl⟩
      exact ⟨n, after, by rw [← hk], hn, ih.2 hafter⟩

/-- A tree stands for an object if its members stand for those of the object in some order. -/
theorem spelledBy_obj_iff {members : List (String × Json)} {n : Node} :
    (Json.obj members).SpelledBy n ↔ ∃ ns o, n = .map ns o ∧ o.Complete ∧
      ∃ others : List (String × Json), others.Perm members ∧
        List.Forall₂ MemberSpelledBy others ns := by
  rw [SpelledBy]
  refine exists_congr fun ns => exists_congr fun o => and_congr_right fun _ =>
    and_congr_right fun _ => ?_
  -- It does not matter whether the trees or the members are put in order first.
  have swap : Relation.Comp (List.Forall₂ MemberSpelledBy) List.Perm members ns ↔
      Relation.Comp List.Perm (List.Forall₂ MemberSpelledBy) members ns := by
    rw [List.forall₂_comp_perm_eq_perm_comp_forall₂]
  constructor
  · rintro ⟨ms, hperm, hms⟩
    obtain ⟨others, hothers, hns⟩ := swap.1 ⟨ms, membersSpelledBy_iff.1 hms, hperm.symm⟩
    exact ⟨others, hothers.symm, hns⟩
  · rintro ⟨others, hperm, hns⟩
    obtain ⟨ms, hms, hperm⟩ := swap.2 ⟨others, hperm.symm, hns⟩
    exact ⟨ms, hperm.symm, membersSpelledBy_iff.2 hms⟩

/-- A member of an object has its tree among those of a tree that stands for the object. -/
theorem SpelledBy.exists_member {members : List (String × Json)} {n : Node}
    (h : (Json.obj members).SpelledBy n) {name : String} {j : Json} (hmem : (name, j) ∈ members) :
    ∃ ns o m, n = .map ns o ∧ (.str name, m) ∈ ns ∧ j.SpelledBy m := by
  obtain ⟨ns, o, rfl, -, others, hperm, hns⟩ := spelledBy_obj_iff.1 h
  refine ⟨ns, o, ?_⟩
  have hmem : (name, j) ∈ others := hperm.mem_iff.2 hmem
  clear h hperm
  induction hns with
  | nil => cases hmem
  | cons first _ ih =>
    rcases List.mem_cons.1 hmem with rfl | hmem
    · exact ⟨_, rfl, List.mem_cons.2 (.inl (Prod.ext first.1.symm rfl)), first.2⟩
    · obtain ⟨m, -, hm, hj⟩ := ih hmem
      exact ⟨m, rfl, List.mem_cons_of_mem _ hm, hj⟩

/-! ## Settled types -/

/-- Members whose values' types can be settled keep their names and their values. -/
theorem exists_bufferedMembers {members : List (String × Json)} {ns : List (Node × Node)}
    (h : ∀ m ∈ members, ∀ n, m.2.SpelledBy n → ∃ k, n.buffered = pure k ∧ m.2.SpelledBy k)
    (hns : List.Forall₂ MemberSpelledBy members ns) :
    ∃ ms, Node.bufferedMembers ns = pure ms ∧ List.Forall₂ MemberSpelledBy members ms := by
  induction hns with
  | nil => exact ⟨[], rfl, .nil⟩
  | @cons m n members ns first _ ih =>
    obtain ⟨name, j⟩ := m
    obtain ⟨key, n⟩ := n
    obtain ⟨rfl, hj⟩ : key = .str name ∧ j.SpelledBy n := first
    obtain ⟨k, hk, hkj⟩ := h _ List.mem_cons_self n hj
    obtain ⟨ms, hms, hspelled⟩ := ih fun m hm => h m (List.mem_cons_of_mem _ hm)
    have keyBuffered : (Node.str name).buffered = pure (.str name) := rfl
    refine ⟨(.str name, k) :: ms, ?_, .cons ⟨rfl, hkj⟩ hspelled⟩
    rw [Node.bufferedMembers, keyBuffered, pure_bind, hk, pure_bind, hms, pure_bind]
    rfl

mutual

/-- A tree that stands for a value does so still when its types are settled. -/
theorem exists_buffered : (j : Json) → (n : Node) → j.SpelledBy n →
    ∃ m, n.buffered = pure m ∧ j.SpelledBy m
  | .null, n, h => by
    rw [SpelledBy] at h
    exact ⟨n, by rw [h]; rfl, h⟩
  | .bool b, n, h => by
    rw [SpelledBy] at h
    exact ⟨n, by rw [h]; rfl, h⟩
  | .num x, n, h => by
    rw [SpelledBy] at h
    exact ⟨n, by rw [h]; rfl, h⟩
  | .str s, n, h => by
    rw [SpelledBy] at h
    exact ⟨n, by rw [h]; rfl, h⟩
  | .arr items, n, h => by
    rw [SpelledBy] at h
    obtain ⟨ns, o, rfl, ho, hns⟩ := h
    obtain ⟨ms, hms, hspelled⟩ := exists_bufferedItems items ns hns
    refine ⟨.seq ms .value, ?_, ?_⟩
    · rw [Node.buffered, hms, pure_bind, ho.close, pure_bind]
    · rw [SpelledBy]
      exact ⟨ms, .value, rfl, .inr rfl, hspelled⟩
  | .obj members, n, h => by
    obtain ⟨ns, o, rfl, ho, others, hperm, hns⟩ := spelledBy_obj_iff.1 h
    obtain ⟨ms, hms, hspelled⟩ := exists_bufferedMembers
      (fun m hm => exists_bufferedMember members m (hperm.mem_iff.1 hm)) hns
    refine ⟨.map ms .value, ?_, ?_⟩
    · rw [Node.buffered, hms, pure_bind, ho.close, pure_bind]
    · exact spelledBy_obj_iff.2 ⟨ms, .value, rfl, .inr rfl, others, hperm, hspelled⟩

/-- Items are the same when their types are settled. -/
theorem exists_bufferedItems : (items : List Json) → (ns : List Node) → ItemsSpelledBy items ns →
    ∃ ms, Node.bufferedItems ns = pure ms ∧ ItemsSpelledBy items ms
  | [], ns, h => by
    rw [ItemsSpelledBy] at h
    exact ⟨ns, by rw [h]; rfl, h⟩
  | j :: rest, ns, h => by
    rw [ItemsSpelledBy] at h
    obtain ⟨n, after, rfl, hn, hafter⟩ := h
    obtain ⟨m, hm, hj⟩ := exists_buffered j n hn
    obtain ⟨ms, hms, hrest⟩ := exists_bufferedItems rest after hafter
    refine ⟨m :: ms, ?_, ?_⟩
    · rw [Node.bufferedItems, hm, pure_bind, hms, pure_bind]
    · rw [ItemsSpelledBy]
      exact ⟨m, ms, rfl, hj, hrest⟩

/-- The value of a member is the same when its types are settled. -/
theorem exists_bufferedMember : (members : List (String × Json)) → ∀ m ∈ members, ∀ n,
    m.2.SpelledBy n → ∃ k, n.buffered = pure k ∧ m.2.SpelledBy k
  | [], _, hm, _, _ => nomatch hm
  | (_, j) :: rest, m, hm, n, h => by
    rcases List.mem_cons.1 hm with rfl | hm
    · exact exists_buffered j n h
    · exact exists_bufferedMember rest m hm n h

end

end Json

namespace Codec

open Json (MemberSpelledBy)

/-! ## Tags -/

variable {tagName tag : String}

/-- A member under another name is kept beside the tag, with its types settled. -/
theorem splitTag_cons_of_ne {name : String} (hne : name ≠ tagName) {n k : Node}
    (hk : n.buffered = pure k) (found : Option String) (rest : List (Node × Node)) :
    splitTag tagName found ((.str name, n) :: rest) = (do
      let (found, members) ← splitTag tagName found rest
      return (found, (.str name, k) :: members)) := by
  have key : (Node.str name).buffered = pure (.str name) := rfl
  have settled : Node.settledKey (.str name) (.str name) = .str name := rfl
  have noTag : ¬isTag tagName (.str name) = true := mt of_decide_eq_true hne
  rw [splitTag, key, pure_bind, settled]
  dsimp only
  rw [if_neg noTag, hk, pure_bind]

/-- Members under other names are all kept beside the tag. -/
theorem exists_splitTag_of_not_mem {members : List (String × Json)} {ns : List (Node × Node)}
    (hns : List.Forall₂ MemberSpelledBy members ns) (away : tagName ∉ Members.names members)
    (found : Option String) :
    ∃ ms, splitTag tagName found ns = pure (found, ms) ∧
      List.Forall₂ MemberSpelledBy members ms := by
  induction hns with
  | nil => exact ⟨[], rfl, .nil⟩
  | @cons m n members ns first _ ih =>
    obtain ⟨name, j⟩ := m
    obtain ⟨key, n⟩ := n
    obtain ⟨rfl, hj⟩ : key = .str name ∧ j.SpelledBy n := first
    obtain ⟨other, away⟩ := not_or.1 (mt List.mem_cons.2 away)
    obtain ⟨k, hk, hkj⟩ := Json.exists_buffered j n hj
    obtain ⟨ms, hms, hspelled⟩ := ih away
    refine ⟨(.str name, k) :: ms, ?_, .cons ⟨rfl, hkj⟩ hspelled⟩
    rw [splitTag_cons_of_ne (Ne.symm other) hk, hms, pure_bind]

/-- The tag is found wherever it stands, and the other members are kept. -/
theorem exists_splitTag {before after : List (String × Json)} {ns : List (Node × Node)}
    (hns : List.Forall₂ MemberSpelledBy (before ++ (tagName, .str tag) :: after) ns)
    (away : tagName ∉ Members.names (before ++ after)) :
    ∃ ms, splitTag tagName none ns = pure (some tag, ms) ∧
      List.Forall₂ MemberSpelledBy (before ++ after) ms := by
  induction before generalizing ns with
  | nil =>
    obtain ⟨⟨key, n⟩, rest, first, hrest, rfl⟩ := List.forall₂_cons_left_iff.1 hns
    obtain ⟨rfl, hn⟩ : key = .str tagName ∧ (Json.str tag).SpelledBy n := first
    rw [Json.SpelledBy] at hn
    subst hn
    -- Behind the tag no other one comes.
    obtain ⟨ms, hms, hspelled⟩ := exists_splitTag_of_not_mem hrest away (some tag)
    have key : (Node.str tagName).buffered = pure (.str tagName) := rfl
    have settled : Node.settledKey (.str tagName) (.str tagName) = .str tagName := rfl
    have isTag : isTag tagName (.str tagName) = true := decide_eq_true rfl
    have text : (Node.str tag).text = pure tag := rfl
    refine ⟨ms, ?_, hspelled⟩
    rw [splitTag, key, pure_bind, settled]
    dsimp only
    rw [if_pos isTag, if_neg (by decide), text, pure_bind, hms]
  | cons m before ih =>
    obtain ⟨name, j⟩ := m
    obtain ⟨⟨key, n⟩, rest, first, hrest, rfl⟩ := List.forall₂_cons_left_iff.1 hns
    obtain ⟨rfl, hj⟩ : key = .str name ∧ j.SpelledBy n := first
    obtain ⟨other, away⟩ := not_or.1 (mt List.mem_cons.2 away)
    obtain ⟨k, hk, hkj⟩ := Json.exists_buffered j n hj
    obtain ⟨ms, hms, hspelled⟩ := ih hrest away
    refine ⟨(.str name, k) :: ms, ?_, .cons ⟨rfl, hkj⟩ hspelled⟩
    rw [splitTag_cons_of_ne (Ne.symm other) hk, hms, pure_bind]

/-- The tag is taken from a tree that stands for an object, and what is left stands for the other
members. -/
theorem exists_takeTag {members : List (String × Json)} {n : Node}
    (hn : (Json.obj ((tagName, .str tag) :: members)).SpelledBy n)
    (away : tagName ∉ Members.names members) :
    ∃ m, n.reached = pure n ∧ takeTag tagName n = pure (tag, m) ∧
      (Json.obj members).SpelledBy m := by
  obtain ⟨ns, o, rfl, ho, others, hperm, hns⟩ := Json.spelledBy_obj_iff.1 hn
  obtain ⟨before, after, rfl⟩ := List.append_of_mem (hperm.symm.mem_iff.1 List.mem_cons_self)
  -- What stands before the tag and after it is all the other members.
  have rest : (before ++ after).Perm members :=
    (List.perm_middle.symm.trans hperm).cons_inv
  have away : tagName ∉ Members.names (before ++ after) :=
    mt (rest.map Prod.fst).mem_iff.1 away
  obtain ⟨ms, hms, hspelled⟩ := exists_splitTag hns away
  refine ⟨.map ms .value, rfl, ?_, ?_⟩
  · rw [takeTag, hms, pure_bind]
    dsimp only
    rw [ho.close, pure_bind]
  · exact Json.spelledBy_obj_iff.2 ⟨ms, .value, rfl, .inr rfl, _, rest, hspelled⟩

/-! ## Unions -/

variable {α β : Type} {variants : List (Variant α)} {v : Variant α}
  {write : α → String × List (String × Json)} {d : Nat} {a : α}

/-- A union is decoded as the choice that its tag selects. -/
theorem exists_decodeUnion {n : Node} (hn : ((union tagName variants write).encode a).SpelledBy n)
    (away : tagName ∉ Members.names (write a).2)
    (find : Variant.find? variants (write a).1 = some v) :
    ∃ m, (Json.obj (write a).2).SpelledBy m ∧
      (union tagName variants write).decode n = v.decode m := by
  obtain ⟨m, reached, taken, hm⟩ := exists_takeTag hn away
  refine ⟨m, hm, ?_⟩
  show decodeUnion tagName variants n = _
  rw [decodeUnion, reached, pure_bind, taken, pure_bind]
  dsimp only
  rw [find]

/-- A union is written tidily if the members beside the tag are. -/
theorem tidy_union (tidy : (Json.obj (write a).2).Tidy d)
    (away : tagName ∉ Members.names (write a).2) :
    ((union tagName variants write).encode a).Tidy d := by
  obtain ⟨e, rfl, hnodup, hmembers⟩ := tidy.members
  refine Json.tidy_obj (List.nodup_cons.2 ⟨away, hnodup⟩) fun m hm => ?_
  rcases List.mem_cons.1 hm with rfl | hm
  · exact Json.tidy_str e _
  · exact hmembers m hm

/-- The values of a choice with fields are decoded if the fields are followed. -/
theorem faithful_union {f : Fields β} {make : β → α} {b : β}
    (find : Variant.find? variants tag = some (.record tag f make)) (h : f.Faithful d b)
    (made : make b = a) (written : write a = (tag, f.write b)) (away : tagName ∉ f.names) :
    (union tagName variants write).Faithful (d + 1) a := by
  have record := faithful_record h
  have other : tagName ∉ Members.names (write a).2 := by
    obtain ⟨slots, h⟩ := h
    rw [written]
    intro hmem
    obtain ⟨m, hm, heq⟩ := List.mem_map.1 hmem
    exact away (heq ▸ h.names m hm)
  refine ⟨tidy_union (by rw [written]; exact record.tidy) other, fun n hn => ?_⟩
  obtain ⟨m, hm, hdecode⟩ := exists_decodeUnion hn other (by rw [written]; exact find)
  rw [written] at hm
  have decoded : f.decode m = pure b := record.decode m hm
  rw [hdecode]
  show make <$> f.decode m = _
  rw [decoded, map_pure, made]

/-- The values of a choice without fields are decoded. -/
theorem faithful_union_bare (find : Variant.find? variants tag = some (.bare tag a))
    (written : write a = (tag, [])) :
    (union tagName variants write).Faithful (d + 1) a := by
  have away : tagName ∉ Members.names (write a).2 := by
    rw [written]
    exact List.not_mem_nil
  refine ⟨tidy_union ?_ away, fun n hn => ?_⟩
  · rw [written]
    exact Json.tidy_obj List.nodup_nil (List.forall_mem_nil _)
  · obtain ⟨m, hm, hdecode⟩ := exists_decodeUnion hn away (by rw [written]; exact find)
    obtain ⟨ms, o, rfl, -⟩ := Json.spelledBy_obj_iff.1 hm
    rw [hdecode]
    rfl

/-- The values of a choice with fields are refused if the value of a field is. -/
theorem refused_union {f : Fields β} {make : β → α} {b : β} {name : String} {j : Json}
    (find : Variant.find? variants tag = some (.record tag f make))
    (hmem : (name, j) ∈ f.write b) (h : ∀ m, j.SpelledBy m → f.Refuses name m)
    (written : write a = (tag, f.write b)) (away : tagName ∉ Members.names (f.write b)) {n : Node}
    (hn : ((union tagName variants write).encode a).SpelledBy n) :
    ((union tagName variants write).decode n).Refused := by
  obtain ⟨m, hm, hdecode⟩ := exists_decodeUnion hn (by rwa [written]) (by rw [written]; exact find)
  rw [written] at hm
  obtain ⟨ms, o, k, rfl, hk, hj⟩ := hm.exists_member hmem
  rw [hdecode]
  exact ((h k hj).decode hk o).map make

end Codec

end TestChain
