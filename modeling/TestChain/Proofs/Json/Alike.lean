import Mathlib.Data.List.Forall2
import Mathlib.Data.List.Nodup
import TestChain.Json.Writer
import TestChain.Proofs.Members

/-!
# Values that are alike

Members match when they have the same names and what stands under a name is related. Members in the
order of their names match exactly when they are related one by one (`Members.forall₂_iff`), and
sorting does not change what matches (`Members.forall₂_sorted_iff`). Two values are alike
(`Json.Alike`) when they have the same parts, where the members of objects may come in any order and
numbers count by their texts.
-/

namespace TestChain

namespace Members

variable {α : Type} {R : α → α → Prop} {ms ns : Members α}

/-- The same names are there, and what stands under a name is related. -/
def Matching (R : α → α → Prop) (ms ns : Members α) : Prop :=
  (∀ name, name ∈ names ms ↔ name ∈ names ns) ∧
    ∀ name a b, (name, a) ∈ ms → (name, b) ∈ ns → R a b

/-- Members in order with the same names have them in the same places. -/
theorem InOrder.names_eq (hm : InOrder ms) (hn : InOrder ns)
    (h : ∀ name, name ∈ names ms ↔ name ∈ names ns) : names ms = names ns := by
  have perm : (names ms).Perm (names ns) := (List.perm_ext_iff_of_nodup hm.nodup hn.nodup).2 h
  have listed : ∀ {l : Members α}, InOrder l → (names l).Pairwise (· < ·) := List.pairwise_map.2
  exact perm.eq_of_pairwise (fun a b _ _ hab hba => absurd hba (String.lt_asymm hab)) (listed hm)
    (listed hn)

/-- A name stands for one value only if no name comes twice. -/
theorem value_unique (h : (names ms).Nodup) {name : String} {a b : α} (ha : (name, a) ∈ ms)
    (hb : (name, b) ∈ ms) : a = b :=
  (Prod.mk.inj (List.inj_on_of_nodup_map h ha hb rfl)).2

/-- Members in order match exactly when they do one by one. -/
theorem forall₂_iff (hm : InOrder ms) (hn : InOrder ns) :
    List.Forall₂ (fun m n => m.1 = n.1 ∧ R m.2 n.2) ms ns ↔ Matching R ms ns := by
  constructor
  · intro h
    have sameNames : List.Forall₂ (· = ·) (names ms) (names ns) :=
      List.forall₂_map_left_iff.2 (List.forall₂_map_right_iff.2 (h.imp fun _ _ h => h.1))
    rw [List.forall₂_eq_eq_eq] at sameNames
    refine ⟨fun name => by rw [sameNames], fun name a b ha hb => ?_⟩
    -- The member across from the first one has its name, so it is the second one.
    obtain ⟨i, hi, hget⟩ := List.mem_iff_getElem.1 ha
    have across := h.get hi (h.length_eq ▸ hi)
    simp only [List.get_eq_getElem, hget] at across
    have there : (name, (ns.get ⟨i, h.length_eq ▸ hi⟩).2) ∈ ns :=
      across.1 ▸ List.get_mem ns ⟨i, h.length_eq ▸ hi⟩
    rw [value_unique hn.nodup hb there]
    exact across.2
  · rintro ⟨sameNames, related⟩
    have namesEq := hm.names_eq hn sameNames
    have lengths : ms.length = ns.length := by
      have := congrArg List.length namesEq
      rwa [names, names, List.length_map, List.length_map] at this
    refine List.forall₂_iff_get.2 ⟨lengths, fun i hi hi' => ?_⟩
    simp only [List.get_eq_getElem]
    have name : ms[i].1 = ns[i].1 := by
      unfold names at namesEq
      have := List.getElem_of_eq namesEq (i := i) (by rwa [List.length_map])
      rwa [List.getElem_map, List.getElem_map] at this
    have across : (ms[i].1, ns[i].2) ∈ ns := by
      rw [name]
      exact List.getElem_mem hi'
    exact ⟨name, related ms[i].1 ms[i].2 ns[i].2 (List.getElem_mem hi) across⟩

/-- Members match exactly when they do one by one in order. -/
theorem forall₂_sorted_iff (hm : (names ms).Nodup) (hn : (names ns).Nodup) :
    List.Forall₂ (fun m n => m.1 = n.1 ∧ R m.2 n.2) (sorted ms) (sorted ns) ↔
      Matching R ms ns := by
  rw [forall₂_iff (inOrder_sorted ms) (inOrder_sorted ns)]
  simp only [Matching, mem_names_sorted, (perm_sorted hm).mem_iff, (perm_sorted hn).mem_iff]

/-- Members of which no name comes twice hold what is found in them. -/
theorem mem_iff_lookup (h : (names ms).Nodup) {name : String} {a : α} :
    (name, a) ∈ ms ↔ ms.lookup name = some a := by
  induction ms with
  | nil => simp
  | cons m rest ih =>
    obtain ⟨n, b⟩ := m
    obtain ⟨hn, hrest⟩ := List.nodup_cons.1 h
    rw [List.mem_cons, lookup_cons, ih hrest]
    by_cases heq : name = n
    · subst heq
      have absent : rest.lookup name = none := lookup_of_not_mem hn
      simp [absent, eq_comm]
    · simp [heq]

/-- Two results are related when both are there or neither, and related if they are there. -/
theorem option_rel_iff {x y : Option α} :
    Option.Rel R x y ↔ (x.isSome ↔ y.isSome) ∧ ∀ a b, x = some a → y = some b → R a b := by
  constructor
  · rintro (h | _)
    · exact ⟨Iff.rfl, fun a b ha hb => Option.some.inj ha ▸ Option.some.inj hb ▸ h⟩
    · exact ⟨Iff.rfl, fun a b ha => nomatch ha⟩
  · rintro ⟨both, related⟩
    rcases x with _ | a <;> rcases y with _ | b
    · exact .none
    · cases both.2 rfl
    · cases both.1 rfl
    · exact .some (related a b rfl rfl)

/-- Members match exactly when what is found under each name is related. -/
theorem matching_iff_lookup (hm : (names ms).Nodup) (hn : (names ns).Nodup) :
    Matching R ms ns ↔ ∀ name, Option.Rel R (ms.lookup name) (ns.lookup name) := by
  simp only [Matching, mem_names_iff_lookup, mem_iff_lookup hm, mem_iff_lookup hn, option_rel_iff,
    forall_and]

/-- Members match those that are the same up to the order. -/
theorem Matching.of_perm (hm : (names ms).Nodup) (h : ms.Perm ns) : Matching Eq ms ns := by
  refine ⟨fun name => (h.map Prod.fst).mem_iff, fun name a b ha hb => ?_⟩
  exact value_unique hm ha (h.mem_iff.2 hb)

/-- Sorting does not depend on the order, if no name comes twice. -/
theorem sorted_of_perm (hm : (names ms).Nodup) (h : ms.Perm ns) : sorted ms = sorted ns := by
  have hn : (names ns).Nodup := (h.map Prod.fst).nodup hm
  have same := (forall₂_sorted_iff hm hn).2 (.of_perm hm h)
  have equal : List.Forall₂ (· = ·) (sorted ms) (sorted ns) :=
    same.imp fun _ _ h => Prod.ext h.1 h.2
  rwa [List.forall₂_eq_eq_eq] at equal

end Members

namespace Json

/-- The values have the same parts: the items of arrays in the same order, the members of objects in
any, and numbers with the same text. -/
inductive Alike : Json → Json → Prop where
  /-- The absent value. -/
  | null : Alike .null .null
  /-- A truth value. -/
  | bool (b : Bool) : Alike (.bool b) (.bool b)
  /-- Numbers with the same text. -/
  | num {m n : Number} (h : m.text = n.text) : Alike (.num m) (.num n)
  /-- A text. -/
  | str (s : String) : Alike (.str s) (.str s)
  /-- Arrays with items that are alike, place by place. -/
  | arr {items others : List Json} (hlength : items.length = others.length)
      (h : ∀ i hi hi', Alike (items.get ⟨i, hi⟩) (others.get ⟨i, hi'⟩)) :
      Alike (.arr items) (.arr others)
  /-- Objects with members that are alike, name by name. -/
  | obj {members others : Members Json}
      (hnames : ∀ name, name ∈ members.names ↔ name ∈ others.names)
      (h : ∀ name a b, (name, a) ∈ members → (name, b) ∈ others → Alike a b) :
      Alike (.obj members) (.obj others)

/-- Numbers are alike if their texts are the same. -/
theorem alike_num_iff {m n : Number} : (Json.num m).Alike (.num n) ↔ m.text = n.text := by
  refine ⟨fun h => ?_, .num⟩
  cases h with
  | num h => exact h

/-- Texts are alike if they are the same. -/
theorem alike_str_iff {s t : String} : (Json.str s).Alike (.str t) ↔ s = t := by
  refine ⟨fun h => ?_, fun h => h ▸ .str s⟩
  cases h with
  | str => rfl

/-- Arrays are alike if their items are. -/
theorem alike_arr_iff {items others : List Json} :
    (Json.arr items).Alike (.arr others) ↔ List.Forall₂ Alike items others := by
  rw [List.forall₂_iff_get]
  exact ⟨fun | .arr hlength h => ⟨hlength, h⟩, fun h => .arr h.1 h.2⟩

/-- Objects are alike if their members match. -/
theorem alike_obj_iff {members others : Members Json} :
    (Json.obj members).Alike (.obj others) ↔ members.Matching Alike others :=
  ⟨fun | .obj hnames h => ⟨hnames, h⟩, fun h => .obj h.1 h.2⟩

end Json

end TestChain
