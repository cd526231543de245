import TestChain.Proofs.Codec.Faithful

/-!
# Records lose nothing

The slots of a description of fields can be followed while the members of a written value are put
into them one by one, in any order: a slot is filled once its field's name is among those that are
done, and when all written members are done the slots make up a value (`Fields.FilledBy`). The
description is faithful to the value (`Fields.Faithful`) if it is made up again from whatever trees
spell the members. Fields, pairs of descriptions and records made from them are faithful to the
values whose parts their codecs are faithful to, and then so is the record (`faithful_record`).
-/

namespace TestChain

namespace Fields

/-- The names that are done, with one more. -/
def done (name : String) (names : String → Bool) : String → Bool :=
  fun n => n == name || names n

/-- The slots `slots` are what the members of the written `a` that are done so far have filled from
the trees that `S` has for their values, and when all of them are done they make up `b`. -/
structure FilledBy {α : Type} (f : Fields α) (S : Json → Node → Prop) (a b : α)
    (slots : (String → Bool) → f.Slots) : Prop where
  /-- The names of the members are names of fields. -/
  names : ∀ m ∈ f.write a, m.1 ∈ f.names
  /-- No name is written twice. -/
  nodup : (Members.names (f.write a)).Nodup
  /-- Only the names of the fields count. -/
  congr : ∀ p q : String → Bool, (∀ n ∈ f.names, p n = q n) → slots p = slots q
  /-- At first no slot is filled. -/
  start : slots (fun _ => false) = f.empty
  /-- A member that is not done is put into its slot. -/
  put : ∀ (p : String → Bool) (name : String) (j : Json) (n : Node), (name, j) ∈ f.write a →
    p name = false → S j n → f.put name n (slots p) = pure (slots (done name p))
  /-- When all members are done, the slots make up the value. -/
  finish : ∀ p : String → Bool, (∀ m ∈ f.write a, p m.1 = true) → f.finish (slots p) = pure b

/-- The members that the description writes for a value are tidy, and the slots `slots` are what the
members done so far have filled. -/
structure FollowedBy {α : Type} (f : Fields α) (d : Nat) (a : α)
    (slots : (String → Bool) → f.Slots) : Prop where
  /-- The members are tidy. -/
  tidy : ∀ m ∈ f.write a, m.2.Tidy d
  /-- The names of the members are names of fields. -/
  names : ∀ m ∈ f.write a, m.1 ∈ f.names
  /-- No name is written twice. -/
  nodup : (Members.names (f.write a)).Nodup
  /-- Only the names of the fields count. -/
  congr : ∀ p q : String → Bool, (∀ n ∈ f.names, p n = q n) → slots p = slots q
  /-- At first no slot is filled. -/
  start : slots (fun _ => false) = f.empty
  /-- A member that is not done is put into its slot. -/
  put : ∀ (p : String → Bool) (name : String) (j : Json) (n : Node), (name, j) ∈ f.write a →
    p name = false → j.SpelledBy n → f.put name n (slots p) = pure (slots (done name p))
  /-- When all members are done, the slots make up the value. -/
  finish : ∀ p : String → Bool, (∀ m ∈ f.write a, p m.1 = true) → f.finish (slots p) = pure a

/-- The description writes the value tidily and makes it up from the written members in any order.
-/
def Faithful {α : Type} (f : Fields α) (d : Nat) (a : α) : Prop :=
  ∃ slots, f.FollowedBy d a slots

variable {α β : Type} {d : Nat} {S : Json → Node → Prop}

/-- A value is followed where its members are tidy and their slots are filled from whatever trees
spell them. -/
theorem followedBy_iff {f : Fields α} {a : α} {slots : (String → Bool) → f.Slots} :
    f.FollowedBy d a slots ↔
      (∀ m ∈ f.write a, m.2.Tidy d) ∧ f.FilledBy Json.SpelledBy a a slots :=
  ⟨fun h => ⟨h.tidy, h.names, h.nodup, h.congr, h.start, h.put, h.finish⟩,
    fun h => ⟨h.1, h.2.names, h.2.nodup, h.2.congr, h.2.start, h.2.put, h.2.finish⟩⟩

/-- A name that is not among those of the fields is not seen by the slots. -/
theorem FilledBy.unseen {f : Fields α} {a b : α} {slots : (String → Bool) → f.Slots}
    (h : f.FilledBy S a b slots) {name : String} (away : name ∉ f.names) (p : String → Bool) :
    slots (done name p) = slots p := by
  refine h.congr _ _ fun n hn => ?_
  have hne : n ≠ name := fun heq => away (heq ▸ hn)
  rw [done, beq_eq_false_iff_ne.2 hne, Bool.false_or]

section Single

variable {name : String} {c : Codec α} {missing short : Option α} {hidden : α → Bool} {a b : α}

/-- For a hidden value nothing is filled, if the other one stands for a missing field. -/
theorem filledBy_hidden (hide : hidden a = true) (hmissing : missing = some b) :
    (single name c missing short hidden).FilledBy S a b fun _ => Option.none := by
  have write : (single name c missing short hidden).write a = [] := if_pos hide
  refine ⟨?_, ?_, fun _ _ _ => rfl, rfl, ?_, fun p _ => ?_⟩
  · rw [write]
    exact fun _ h => (nomatch h)
  · rw [write]
    exact List.nodup_nil
  · rw [write]
    exact fun _ _ _ _ h => (nomatch h)
  · unfold single
    dsimp only
    rw [hmissing]
    rfl

/-- The slot of a value that is written is filled with what its trees are decoded as. -/
theorem filledBy_written (h : ∀ n, S (c.encode a) n → c.decode n = pure b)
    (hide : ¬hidden a = true) :
    (single name c missing short hidden).FilledBy S a b
      fun p => if p name then some b else Option.none := by
  have write : (single name c missing short hidden).write a = [(name, c.encode a)] := if_neg hide
  refine ⟨?_, ?_, ?_, rfl, ?_, ?_⟩
  · rw [write]
    intro m hm
    rw [List.mem_singleton.1 hm]
    exact List.mem_singleton.2 rfl
  · rw [write]
    exact List.pairwise_singleton _ _
  · intro p q hpq
    rw [hpq name (List.mem_singleton.2 rfl)]
  · rw [write]
    intro p k j n hk hp hj
    obtain ⟨rfl, rfl⟩ := Prod.mk.inj (List.mem_singleton.1 hk)
    -- The slot is empty before the member comes, and holds the value afterwards.
    have before : (if p k then some b else Option.none) = (Option.none : Option α) := by
      rw [hp]
      rfl
    have after : (if done k p k then some b else Option.none) = some b := by
      rw [done, beq_self_eq_true]
      rfl
    unfold single
    dsimp only
    rw [before, after, h n hj, map_pure]
  · rw [write]
    intro p hp
    unfold single
    dsimp only
    rw [hp _ (List.mem_singleton.2 rfl), if_pos rfl]
    rfl

/-- One field is followed if its codec is faithful to the value and a hidden value stands for a
missing field. -/
theorem faithful_single (h : c.Faithful d a) (hmissing : hidden a = true → missing = some a) :
    (single name c missing short hidden).Faithful d a := by
  by_cases hide : hidden a = true
  · have write : (single name c missing short hidden).write a = [] := if_pos hide
    refine ⟨_, followedBy_iff.2 ⟨?_, filledBy_hidden hide (hmissing hide)⟩⟩
    rw [write]
    exact List.forall_mem_nil _
  · have write : (single name c missing short hidden).write a = [(name, c.encode a)] :=
      if_neg hide
    refine ⟨_, followedBy_iff.2 ⟨?_, filledBy_written h.decode hide⟩⟩
    rw [write]
    exact List.forall_mem_singleton.2 h.tidy

end Single

/-- A field that must be there is followed. -/
theorem faithful_required {name : String} {c : Codec α} {a : α} (h : c.Faithful d a) :
    (required name c).Faithful d a :=
  faithful_single h fun h => (nomatch h)

/-- A field that another value stands for is followed. -/
theorem faithful_defaulted {name : String} {c : Codec α} {value a : α} (h : c.Faithful d a) :
    (defaulted name c value).Faithful d a :=
  faithful_single h fun h => (nomatch h)

/-- The slots of two descriptions without a name in common are filled together. -/
theorem FilledBy.and {f : Fields α} {g : Fields β} {a a' : α} {b b' : β}
    {s : (String → Bool) → f.Slots} {t : (String → Bool) → g.Slots} (hs : f.FilledBy S a a' s)
    (ht : g.FilledBy S b b' t) (apart : ∀ n ∈ f.names, n ∉ g.names) :
    (f.and g).FilledBy S (a, b) (a', b') fun p => (s p, t p) := by
  have write : (f.and g).write (a, b) = f.write a ++ g.write b := rfl
  refine ⟨?_, ?_, ?_, ?_, ?_, ?_⟩
  · rw [write]
    intro m hm
    exact List.mem_append.2 ((List.mem_append.1 hm).imp (hs.names m) (ht.names m))
  · rw [write, Members.names, List.map_append]
    refine List.nodup_append.2 ⟨hs.nodup, ht.nodup, fun k hk l hl hkl => ?_⟩
    obtain ⟨m, hm, rfl⟩ := List.mem_map.1 hk
    obtain ⟨m', hm', rfl⟩ := List.mem_map.1 hl
    exact apart _ (hs.names m hm) (hkl ▸ ht.names m' hm')
  · intro p q hpq
    show (s p, t p) = (s q, t q)
    rw [hs.congr p q fun n hn => hpq n (List.mem_append_left _ hn),
      ht.congr p q fun n hn => hpq n (List.mem_append_right _ hn)]
  · show (s fun _ => false, t fun _ => false) = (f.empty, g.empty)
    rw [hs.start, ht.start]
  · rw [write]
    intro p name j n hmem hp hj
    -- A member goes into the slots of its own description; those of the other one do not see it.
    rcases List.mem_append.1 hmem with hm | hm
    · have own : name ∈ f.names := hs.names _ hm
      have other : t (done name p) = t p := ht.unseen (apart name own) p
      show (if f.names.contains name then do return (← f.put name n (s p), t p)
        else do return (s p, ← g.put name n (t p)) : Decoding (f.Slots × g.Slots)) = _
      rw [if_pos (List.contains_iff_mem.2 own), hs.put p name j n hm hp hj, pure_bind, other]
      rfl
    · have own : name ∈ g.names := ht.names _ hm
      have away : name ∉ f.names := fun h => apart name h own
      have other : s (done name p) = s p := hs.unseen away p
      show (if f.names.contains name then do return (← f.put name n (s p), t p)
        else do return (s p, ← g.put name n (t p)) : Decoding (f.Slots × g.Slots)) = _
      rw [if_neg (mt List.contains_iff_mem.1 away), ht.put p name j n hm hp hj, pure_bind, other]
      rfl
  · rw [write]
    intro p hp
    show (do
      let a ← f.finish (s p)
      let b ← g.finish (t p)
      return (a, b) : Decoding (α × β)) = _
    rw [hs.finish p fun m hm => hp m (List.mem_append_left _ hm), pure_bind,
      ht.finish p fun m hm => hp m (List.mem_append_right _ hm), pure_bind]

/-- The slots of a record are filled as those of the values it is made from. -/
theorem FilledBy.map {f : Fields α} {make : α → β} {view : β → α} {a : α} {b b' : β}
    {s : (String → Bool) → f.Slots} (h : f.FilledBy S (view b) a s) (hmake : make a = b') :
    (f.map make view).FilledBy S b b' s := by
  refine ⟨h.names, h.nodup, h.congr, h.start, h.put, fun p hp => ?_⟩
  show make <$> f.finish (s p) = pure b'
  rw [h.finish p hp, map_pure, hmake]

/-- The fields of two descriptions without a name in common are followed together. -/
theorem Faithful.and {f : Fields α} {g : Fields β} {a : α} {b : β} (hf : f.Faithful d a)
    (hg : g.Faithful d b) (apart : ∀ n ∈ f.names, n ∉ g.names) :
    (f.and g).Faithful d (a, b) := by
  obtain ⟨s, hs⟩ := hf
  obtain ⟨t, ht⟩ := hg
  obtain ⟨tidy, filled⟩ := followedBy_iff.1 hs
  obtain ⟨tidy', filled'⟩ := followedBy_iff.1 ht
  exact ⟨_, followedBy_iff.2 ⟨List.forall_mem_append.2 ⟨tidy, tidy'⟩, filled.and filled' apart⟩⟩

/-- The fields of a record are followed as those of the values it is made from. -/
theorem Faithful.map {f : Fields α} {make : α → β} {view : β → α} {b : β}
    (h : f.Faithful d (view b)) (hmake : make (view b) = b) : (f.map make view).Faithful d b := by
  obtain ⟨s, hs⟩ := h
  obtain ⟨tidy, filled⟩ := followedBy_iff.1 hs
  exact ⟨s, followedBy_iff.2 ⟨tidy, filled.map hmake⟩⟩

/-- Trees for different members of the value fill their slots one after the other. -/
theorem FilledBy.fill {f : Fields α} {a b : α} {slots : (String → Bool) → f.Slots}
    (h : f.FilledBy S a b slots) (ms : List (Node × Node)) (names : List String)
    (p : String → Bool) (hkeys : ms.map Prod.fst = names.map Node.str) (hnodup : names.Nodup)
    (hnew : ∀ n ∈ names, p n = false)
    (hms : ∀ m ∈ ms, ∃ name j, m.1 = .str name ∧ (name, j) ∈ f.write a ∧ S j m.2) :
    ∃ q, f.fill (slots p) ms = pure (slots q) ∧ ∀ n, q n = true ↔ p n = true ∨ n ∈ names := by
  induction ms generalizing names p with
  | nil =>
    have empty : names = [] := List.map_eq_nil_iff.1 hkeys.symm
    subst empty
    exact ⟨p, rfl, fun n => by simp⟩
  | cons m rest ih =>
    obtain ⟨k, n⟩ := m
    cases names with
    | nil => cases hkeys
    | cons name names =>
      obtain ⟨hk, hrest⟩ := List.cons.inj hkeys
      obtain ⟨hname, hnodup⟩ := List.nodup_cons.1 hnodup
      obtain ⟨name', j, hk', hmem, hj⟩ := hms (k, n) List.mem_cons_self
      have hk : k = .str name := hk
      subst hk
      obtain rfl : name = name' := by
        injection hk'
      -- The first member fills its own slot, which was free, since no name comes twice.
      have own := h.names _ hmem
      have put := h.put p name j n hmem (hnew name List.mem_cons_self) hj
      obtain ⟨q, hq, hdone⟩ := ih names (done name p) hrest hnodup
        (fun l hl => by
          have hne : l ≠ name := fun e => hname (e ▸ hl)
          rw [done, beq_eq_false_iff_ne.2 hne, hnew l (List.mem_cons_of_mem _ hl)]
          rfl)
        (fun m hm => hms m (List.mem_cons_of_mem _ hm))
      refine ⟨q, ?_, fun l => ?_⟩
      · show (if f.names.contains name then do
            let s ← f.put name n (slots p)
            f.fill s rest
          else do
            n.skip
            f.fill (slots p) rest : Decoding f.Slots) = _
        rw [if_pos (List.contains_iff_mem.2 own), put, pure_bind, hq]
      · rw [hdone l, done, Bool.or_eq_true, beq_iff_eq, List.mem_cons, or_comm (a := l = name),
          or_assoc]

end Fields

/-- What is a list of images in another order is a list of images. -/
theorem exists_map_of_perm {α β : Type} {f : α → β} {l m : List β} (h : l.Perm m) :
    ∀ {as : List α}, m = as.map f → ∃ bs : List α, l = bs.map f ∧ bs.Perm as := by
  induction h with
  | nil => exact fun hm => ⟨[], rfl, List.map_eq_nil_iff.1 hm.symm ▸ .refl _⟩
  | cons x _ ih =>
    intro as hm
    obtain ⟨a, as, rfl, rfl, tail⟩ := List.map_eq_cons_iff.1 hm.symm
    obtain ⟨bs, rfl, hbs⟩ := ih tail.symm
    exact ⟨a :: bs, rfl, hbs.cons a⟩
  | swap x y l =>
    intro as hm
    obtain ⟨a, as, rfl, rfl, tail⟩ := List.map_eq_cons_iff.1 hm.symm
    obtain ⟨b, as, rfl, rfl, rfl⟩ := List.map_eq_cons_iff.1 tail
    exact ⟨b :: a :: as, rfl, .swap a b as⟩
  | trans _ _ ih ih' =>
    intro as hm
    obtain ⟨bs, hbs, hperm⟩ := ih' hm
    obtain ⟨cs, hcs, hperm'⟩ := ih hbs
    exact ⟨cs, hcs, hperm'.trans hperm⟩

/-- A mapping whose members are trees for the written members in some order is decoded if their
slots are filled. -/
theorem Fields.FilledBy.decode {α : Type} {f : Fields α} {S : Json → Node → Prop} {a b : α}
    {slots : (String → Bool) → f.Slots} (h : f.FilledBy S a b slots) {ns ms : List (Node × Node)}
    (hperm : ns.Perm ms) (hkeys : ms.map Prod.fst = (Members.names (f.write a)).map Node.str)
    (hms : ∀ m ∈ ms, ∃ name j, m.1 = .str name ∧ (name, j) ∈ f.write a ∧ S j m.2) {o : Origin}
    (ho : o.Complete) : f.decode (.map ns o) = pure b := by
  -- The members' names, in the order in which the members come.
  obtain ⟨names, hkeys, hnames⟩ : ∃ names : List String, ns.map Prod.fst = names.map Node.str ∧
      names.Perm (Members.names (f.write a)) :=
    exists_map_of_perm (hperm.map Prod.fst) hkeys
  obtain ⟨q, hfill, hdone⟩ := h.fill ns names (fun _ => false) hkeys (hnames.symm.nodup h.nodup)
    (fun _ _ => rfl) fun m hm => hms m (hperm.mem_iff.1 hm)
  show o.within (do
    let s ← f.fill f.empty ns
    o.close
    f.finish s : Decoding α) = _
  rw [← h.start, hfill, pure_bind, ho.close, pure_bind, h.finish q fun m hm =>
    (hdone m.1).2 (.inr (hnames.mem_iff.2 (List.mem_map_of_mem hm)))]
  exact Origin.within_pure o b

/-- A record is decoded if its fields are followed. -/
theorem Codec.faithful_record {α : Type} {f : Fields α} {d : Nat} {a : α} (h : f.Faithful d a) :
    (Codec.record f).Faithful (d + 1) a := by
  obtain ⟨slots, h⟩ := h
  refine ⟨Json.tidy_obj h.nodup h.tidy, fun n hn => ?_⟩
  have hn : (Json.obj (f.write a)).SpelledBy n := hn
  rw [Json.SpelledBy] at hn
  obtain ⟨ns, o, rfl, ho, ms, hperm, hms⟩ := hn
  exact (Fields.followedBy_iff.1 h).2.decode hperm hms.keys (fun m hm => hms.exists_of_mem hm) ho

end TestChain
