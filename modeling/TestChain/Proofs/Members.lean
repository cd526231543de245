import TestChain.Members

/-!
# Named members as finite maps

What is found after a member was put (`Members.lookup_put`), and what sorting does: it keeps the
members if no name comes twice (`Members.perm_sorted`) and the last one of a name if some do
(`Members.lookup_sorted`), puts them in order (`Members.inOrder_sorted`), and leaves members that
are in order (`Members.sorted_of_inOrder`).
-/

namespace TestChain

namespace Members

variable {α β : Type}

/-! ## Putting in place -/

/-- A lookup looks at the first member and then at the others. -/
theorem lookup_cons (name n : String) (a : α) (ms : Members α) :
    List.lookup name ((n, a) :: ms) = if name = n then some a else ms.lookup name := by
  rw [List.lookup_cons]
  by_cases h : name = n
  · rw [if_pos h, beq_iff_eq.2 h]
  · rw [if_neg h, beq_eq_false_iff_ne.2 h]

/-- The member that was put is found under its name, and the others as before. -/
theorem lookup_put (name other : String) (a : α) (ms : Members α) :
    (put name a ms).lookup other = if other = name then some a else ms.lookup other := by
  induction ms with
  | nil => rw [put, lookup_cons]
  | cons m rest ih =>
    obtain ⟨n, b⟩ := m
    rw [put]
    by_cases hn : n = name
    -- Putting stops at the first member of the name, and so does a lookup.
    · subst hn
      rw [if_pos rfl, lookup_cons, lookup_cons]
      by_cases h : other = n
      · rw [if_pos h, if_pos h]
      · rw [if_neg h, if_neg h, if_neg h]
    · rw [if_neg hn, lookup_cons, lookup_cons, ih]
      by_cases h : other = n
      · rw [if_pos h, if_pos h, if_neg fun e => hn (h.symm.trans e)]
      · rw [if_neg h, if_neg h]

/-- A member after `put` is the new one or an old one. -/
theorem mem_put {name : String} {a : α} {ms : Members α} {m : String × α}
    (h : m ∈ put name a ms) : m = (name, a) ∨ m ∈ ms := by
  induction ms with
  | nil => exact .inl (List.mem_singleton.1 h)
  | cons first rest ih =>
    obtain ⟨n, b⟩ := first
    rw [put] at h
    split at h
    · rename_i heq
      exact (List.mem_cons.1 h).imp (fun e => heq ▸ e) (List.mem_cons_of_mem _)
    · rcases List.mem_cons.1 h with h | h
      · exact .inr (h ▸ List.mem_cons_self)
      · exact (ih h).imp id (List.mem_cons_of_mem _)

/-- A member of a new name is put at the end. -/
theorem put_of_not_mem {name : String} (a : α) {ms : Members α} (h : name ∉ names ms) :
    put name a ms = ms ++ [(name, a)] := by
  induction ms with
  | nil => rfl
  | cons first rest ih =>
    obtain ⟨n, b⟩ := first
    simp only [names, List.map_cons, List.mem_cons, not_or] at h ih
    rw [put, if_neg (Ne.symm h.1), ih h.2]
    rfl

/-- The names stay when a member takes the place of another one. -/
theorem names_put_of_mem {name : String} (a : α) {ms : Members α} (h : name ∈ names ms) :
    names (put name a ms) = names ms := by
  induction ms with
  | nil => cases h
  | cons first rest ih =>
    obtain ⟨n, b⟩ := first
    rw [put]
    split
    · rfl
    · rename_i hne
      have hrest : name ∈ names rest :=
        (List.mem_cons.1 h).resolve_left fun heq => hne heq.symm
      have same := ih hrest
      unfold names at same ⊢
      rw [List.map_cons, List.map_cons, same]

/-- Nothing is found under a name that no member has. -/
theorem lookup_of_not_mem {name : String} {ms : Members α} (h : name ∉ names ms) :
    ms.lookup name = none := by
  refine List.lookup_eq_none_iff.2 fun m hm => bne_iff_ne.2 fun heq => h ?_
  rw [heq]
  exact List.mem_map_of_mem hm

/-- A lookup in members whose values were changed finds the changed value. -/
theorem lookup_map (f : α → β) (name : String) (ms : Members α) :
    (ms.map fun m => (m.1, f m.2)).lookup name = (ms.lookup name).map f := by
  induction ms with
  | nil => rfl
  | cons m rest ih =>
    obtain ⟨n, a⟩ := m
    rw [List.map_cons, lookup_cons, lookup_cons, ih]
    split <;> rfl

/-- A name is there exactly when something is found under it. -/
theorem mem_names_iff_lookup {name : String} {ms : Members α} :
    name ∈ names ms ↔ (ms.lookup name).isSome := by
  rw [List.lookup_isSome_iff, names, List.mem_map]
  exact exists_congr fun m => and_congr_right fun _ => eq_comm.trans beq_iff_eq.symm

/-! ## Sorting -/

/-- Putting a member of a new name into members in order adds it. -/
theorem perm_putSorted {name : String} {a : α} {ms : Members α} (h : name ∉ names ms) :
    (putSorted name a ms).Perm ((name, a) :: ms) := by
  induction ms with
  | nil => exact .refl _
  | cons m rest ih =>
    obtain ⟨n, b⟩ := m
    simp only [names, List.map_cons, List.mem_cons, not_or] at h ih
    rw [putSorted]
    split
    · exact .refl _
    · rw [if_neg h.1]
      exact ((ih h.2).cons _).trans (.swap _ _ _)

/-- Members with distinct names are the same in the order of their names. -/
theorem perm_sorted {ms : Members α} (h : (names ms).Nodup) : (sorted ms).Perm ms := by
  -- The members put so far and those still to come are all members, each name once.
  have step : ∀ (rest done : Members α), (names (done ++ rest)).Nodup →
      (rest.foldl (fun done m => putSorted m.1 m.2 done) done).Perm (done ++ rest) := by
    intro rest
    induction rest with
    | nil =>
      intro done _
      rw [List.foldl_nil, List.append_nil]
    | cons m rest ih =>
      intro done hnodup
      have hperm : (done ++ m :: rest).Perm (m :: done ++ rest) := List.perm_middle
      have hnodup' : (names (m :: done ++ rest)).Nodup := (hperm.map Prod.fst).nodup hnodup
      have hnew : m.1 ∉ names done := by
        simp only [names, List.cons_append, List.map_cons, List.map_append, List.nodup_cons,
          List.mem_append, not_or] at hnodup'
        exact hnodup'.1.1
      have hput := (perm_putSorted (a := m.2) hnew).append_right rest
      rw [List.foldl_cons]
      exact (ih _ ((hput.map Prod.fst).symm.nodup hnodup')).trans (hput.trans hperm.symm)
  exact step ms [] h

/-- The members are in strictly increasing order of their names. -/
def InOrder (ms : Members α) : Prop :=
  ms.Pairwise fun a b => a.1 < b.1

/-- No name comes twice in members in order. -/
theorem InOrder.nodup {ms : Members α} (h : InOrder ms) : (names ms).Nodup := by
  refine List.Pairwise.map Prod.fst (fun a b hlt heq => ?_) h
  exact String.lt_irrefl b.1 (heq ▸ hlt)

/-- A member after `putSorted` is the new one or an old one. -/
theorem mem_putSorted {name : String} {a : α} {ms : Members α} {m : String × α}
    (h : m ∈ putSorted name a ms) : m = (name, a) ∨ m ∈ ms := by
  induction ms with
  | nil => exact .inl (List.mem_singleton.1 h)
  | cons first rest ih =>
    obtain ⟨n, b⟩ := first
    rw [putSorted] at h
    split at h
    · exact List.mem_cons.1 h
    · split at h
      · exact (List.mem_cons.1 h).imp id (List.mem_cons_of_mem _)
      · rcases List.mem_cons.1 h with h | h
        · exact .inr (h ▸ List.mem_cons_self)
        · exact (ih h).imp id (List.mem_cons_of_mem _)

/-- `putSorted` keeps the order. -/
theorem InOrder.putSorted {ms : Members α} (h : InOrder ms) (name : String) (a : α) :
    InOrder (Members.putSorted name a ms) := by
  unfold InOrder at h ⊢
  induction ms with
  | nil => exact List.pairwise_singleton _ _
  | cons first rest ih =>
    obtain ⟨n, b⟩ := first
    obtain ⟨hfirst, hrest⟩ := List.pairwise_cons.1 h
    rw [Members.putSorted]
    split
    · rename_i hlt
      refine List.pairwise_cons.2 ⟨fun m hm => ?_, h⟩
      rcases List.mem_cons.1 hm with rfl | hm
      · exact hlt
      · exact String.lt_trans hlt (hfirst m hm)
    · rename_i hnot
      split
      · rename_i heq
        exact List.pairwise_cons.2 ⟨fun m hm => heq ▸ hfirst m hm, hrest⟩
      · rename_i hne
        refine List.pairwise_cons.2 ⟨fun m hm => ?_, ih hrest⟩
        -- Behind the first member there are now the new one, which is greater, and the others.
        rcases mem_putSorted hm with rfl | hm
        · exact Decidable.byContradiction fun h' =>
            hne (Std.Trichotomous.trichotomous name n hnot h')
        · exact hfirst m hm

/-- Sorted members are in order. -/
theorem inOrder_sorted (ms : Members α) : InOrder (sorted ms) :=
  List.foldlRecOn ms _ List.Pairwise.nil fun _ h m _ => InOrder.putSorted h m.1 m.2

/-- `putSorted` adds no name but the new one, and loses none. -/
theorem mem_names_putSorted {name n : String} {a : α} {ms : Members α} :
    n ∈ names (putSorted name a ms) ↔ n = name ∨ n ∈ names ms := by
  induction ms with
  | nil => simp only [putSorted, names, List.map_cons, List.map_nil, List.mem_cons]
  | cons first rest ih =>
    obtain ⟨k, b⟩ := first
    simp only [names, List.map_cons, List.mem_cons] at ih ⊢
    rw [Members.putSorted]
    split
    · simp only [List.map_cons, List.mem_cons]
    · split
      · rename_i heq
        simp only [List.map_cons, List.mem_cons, heq, or_self_left]
      · rw [List.map_cons, List.mem_cons, ih]
        exact or_left_comm

/-- Sorting keeps the names. -/
theorem mem_names_sorted {n : String} {ms : Members α} : n ∈ names (sorted ms) ↔ n ∈ names ms := by
  have step : ∀ (ms done : Members α),
      n ∈ names (ms.foldl (fun done m => putSorted m.1 m.2 done) done) ↔
        n ∈ names ms ∨ n ∈ names done := by
    intro ms
    induction ms with
    | nil => exact fun done => (or_iff_right fun h => (nomatch h)).symm
    | cons m rest ih =>
      intro done
      rw [List.foldl_cons, ih, mem_names_putSorted]
      simp only [names, List.map_cons, List.mem_cons]
      exact or_left_comm.trans or_assoc.symm
  exact (step ms []).trans (or_iff_left fun h => (nomatch h))

/-- Sorting adds no members. -/
theorem mem_of_mem_sorted {m : String × α} {ms : Members α} (h : m ∈ sorted ms) : m ∈ ms := by
  have step : ∀ (ms done : Members α),
      m ∈ ms.foldl (fun done m => putSorted m.1 m.2 done) done → m ∈ ms ∨ m ∈ done := by
    intro ms
    induction ms with
    | nil => exact fun _ h => .inr h
    | cons first rest ih =>
      intro done h
      rcases ih _ h with h | h
      · exact .inl (List.mem_cons_of_mem _ h)
      · rcases mem_putSorted h with rfl | h
        · exact .inl List.mem_cons_self
        · exact .inr h
  exact (step ms [] h).resolve_right fun h => (nomatch h)

/-- The member that was put in order is found under its name, and the others as before. -/
theorem lookup_putSorted (name other : String) (a : α) (ms : Members α) :
    (putSorted name a ms).lookup other = if other = name then some a else ms.lookup other := by
  induction ms with
  | nil => rw [putSorted, lookup_cons]
  | cons first rest ih =>
    obtain ⟨n, b⟩ := first
    rw [putSorted]
    split
    · rw [lookup_cons]
    · split
      · rename_i heq
        -- The member that was replaced had the same name.
        subst heq
        rw [lookup_cons, lookup_cons]
        by_cases h : other = name
        · rw [if_pos h, if_pos h]
        · rw [if_neg h, if_neg h, if_neg h]
      · rename_i hne
        rw [lookup_cons, lookup_cons, ih]
        by_cases h : other = n
        · rw [if_pos h, if_pos h, if_neg fun e => hne (e.symm.trans h)]
        · rw [if_neg h, if_neg h]

/-- Of several members with one name the last is found when they are sorted. -/
theorem lookup_sorted (name : String) (ms : Members α) :
    (sorted ms).lookup name = ms.reverse.lookup name := by
  have step : ∀ (ms done : Members α),
      (ms.foldl (fun done m => putSorted m.1 m.2 done) done).lookup name =
        (ms.reverse.lookup name).or (done.lookup name) := by
    intro ms
    induction ms with
    | nil => exact fun _ => rfl
    | cons m rest ih =>
      intro done
      have first : (putSorted m.1 m.2 done).lookup name =
          (List.lookup name [m]).or (done.lookup name) := by
        rw [lookup_putSorted, lookup_cons]
        by_cases h : name = m.1
        · rw [if_pos h, if_pos h]
          rfl
        · rw [if_neg h, if_neg h]
          rfl
      rw [List.foldl_cons, ih, first, List.reverse_cons, List.lookup_append, Option.or_assoc]
  rw [sorted, step ms []]
  exact Option.or_none

/-- A member behind all others is put at the end. -/
theorem putSorted_of_forall_lt {name : String} {a : α} {ms : Members α}
    (h : ∀ m ∈ ms, m.1 < name) : putSorted name a ms = ms ++ [(name, a)] := by
  induction ms with
  | nil => rfl
  | cons first rest ih =>
    obtain ⟨n, b⟩ := first
    have hn : n < name := h _ List.mem_cons_self
    have hne : name ≠ n := fun e => String.lt_irrefl n (by simpa only [e] using hn)
    rw [putSorted, if_neg (String.lt_asymm hn), if_neg hne,
      ih fun m hm => h m (List.mem_cons_of_mem _ hm)]
    rfl

/-- Members in order stay as they are when they are sorted. -/
theorem sorted_of_inOrder {ms : Members α} (h : InOrder ms) : sorted ms = ms := by
  have step : ∀ (rest done : Members α), InOrder (done ++ rest) →
      rest.foldl (fun done m => putSorted m.1 m.2 done) done = done ++ rest := by
    intro rest
    induction rest with
    | nil => exact fun done _ => (List.append_nil done).symm
    | cons m rest ih =>
      intro done hdone
      have before : ∀ d ∈ done, d.1 < m.1 := fun d hd =>
        (List.pairwise_append.1 hdone).2.2 d hd m List.mem_cons_self
      rw [List.foldl_cons, putSorted_of_forall_lt before]
      have hdone' : InOrder ((done ++ [m]) ++ rest) := by
        rw [List.append_assoc]
        exact hdone
      rw [ih _ hdone', List.append_assoc]
      rfl
  exact step ms [] h

/-- Changing the members' values and putting a member in commute. -/
theorem map_putSorted (f : α → β) (name : String) (a : α) (ms : Members α) :
    (putSorted name a ms).map (fun m => (m.1, f m.2)) =
      putSorted name (f a) (ms.map fun m => (m.1, f m.2)) := by
  induction ms with
  | nil => rfl
  | cons first rest ih =>
    obtain ⟨n, b⟩ := first
    rw [List.map_cons, putSorted, putSorted]
    split
    · rfl
    · split
      · rfl
      · rw [List.map_cons, ih]

/-- Changing the members' values and sorting commute. -/
theorem map_sorted (f : α → β) (ms : Members α) :
    (sorted ms).map (fun m => (m.1, f m.2)) = sorted (ms.map fun m => (m.1, f m.2)) := by
  have step : ∀ (ms done : Members α),
      (ms.foldl (fun done m => putSorted m.1 m.2 done) done).map (fun m => (m.1, f m.2)) =
        (ms.map fun m => (m.1, f m.2)).foldl (fun done m => putSorted m.1 m.2 done)
          (done.map fun m => (m.1, f m.2)) := by
    intro ms
    induction ms with
    | nil => exact fun _ => rfl
    | cons m rest ih =>
      intro done
      rw [List.foldl_cons, ih, List.map_cons, List.foldl_cons, map_putSorted]
  exact step ms []

end Members

end TestChain
