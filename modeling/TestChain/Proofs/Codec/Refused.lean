import TestChain.Proofs.Codec.Record

/-!
# Values that are refused

A decoding is refused (`Decoding.Refused`) if it ends in an error however many aliases may still be
followed. One part that is refused is enough: a list is refused with an item
(`Codec.refused_decodeList`), a record with the value of a field (`Fields.Refuses.decode`), whatever
its other members are and wherever they stand.
-/

namespace TestChain

/-- The decoding ends in an error, however many aliases may still be followed. -/
def Decoding.Refused {α : Type} (x : Decoding α) : Prop :=
  ∀ left, ∃ e, x left = .error e

namespace Decoding.Refused

variable {α β : Type} {x : Decoding α}

/-- What throws is refused. -/
theorem throw (e : DecodeError) : Refused (MonadExcept.throw e : Decoding α) :=
  fun _ => ⟨e, rfl⟩

/-- Nothing comes after a decoding that is refused. -/
theorem bind (h : x.Refused) (f : α → Decoding β) : (x >>= f).Refused := by
  intro left
  obtain ⟨e, he⟩ := h left
  refine ⟨e, ?_⟩
  show (x left >>= fun r => f r.1 r.2) = _
  rw [he]
  rfl

/-- A decoding is refused if whatever comes after its first step is. -/
theorem bind_of_forall {f : α → Decoding β} (h : ∀ a, (f a).Refused) : (x >>= f).Refused := by
  intro left
  show ∃ e, (x left >>= fun r => f r.1 r.2) = _
  cases hx : x left with
  | error e => exact ⟨e, rfl⟩
  | ok r => exact h r.1 r.2

/-- A result that is changed afterwards is refused as before. -/
theorem map (h : x.Refused) (f : α → β) : (f <$> x).Refused := by
  rw [map_eq_pure_bind]
  exact h.bind _

/-- Parts that are refused are refused in every container. -/
theorem within (h : x.Refused) (o : Origin) : (o.within x).Refused := by
  intro left
  obtain ⟨e, he⟩ := h left
  unfold Origin.within
  rw [he]
  cases o <;> exact ⟨_, rfl⟩

end Decoding.Refused

/-! ## Records -/

namespace Fields

variable {α β : Type} {f : Fields α} {name : String} {n : Node}

/-- The field of the name refuses the value, whatever was found before. -/
def Refuses (f : Fields α) (name : String) (n : Node) : Prop :=
  name ∈ f.names ∧ ∀ s, (f.put name n s).Refused

/-- One field refuses what its codec refuses, and every value if it comes again. -/
theorem refuses_single {c : Codec α} {missing short : Option α} {hidden : α → Bool}
    (h : (c.decode n).Refused) : (single name c missing short hidden).Refuses name n := by
  refine ⟨List.mem_singleton.2 rfl, fun found => ?_⟩
  cases found with
  | none => exact h.map _
  | some a => exact .throw _

namespace Refuses

/-- The first of two descriptions refuses for both. -/
theorem left (h : f.Refuses name n) (g : Fields β) : (f.and g).Refuses name n := by
  refine ⟨List.mem_append_left _ h.1, fun s => ?_⟩
  have first : f.names.contains name = true := List.contains_iff_mem.2 h.1
  show Decoding.Refused (if f.names.contains name then do return (← f.put name n s.1, s.2)
    else do return (s.1, ← g.put name n s.2) : Decoding (f.Slots × g.Slots))
  rw [if_pos first]
  exact (h.2 s.1).bind _

/-- The second of two descriptions refuses for both under a name that the first does not have. -/
theorem right {g : Fields β} (h : g.Refuses name n) (away : name ∉ f.names) :
    (f.and g).Refuses name n := by
  refine ⟨List.mem_append_right _ h.1, fun s => ?_⟩
  show Decoding.Refused (if f.names.contains name then do return (← f.put name n s.1, s.2)
    else do return (s.1, ← g.put name n s.2) : Decoding (f.Slots × g.Slots))
  rw [if_neg (mt List.contains_iff_mem.1 away)]
  exact (h.2 s.2).bind _

/-- The fields of a record refuse as those of the values it is made from. -/
theorem map (h : f.Refuses name n) (make : α → β) (view : β → α) :
    (f.map make view).Refuses name n := h

/-- Members are refused with the value of a field, wherever it stands. -/
theorem fill (h : f.Refuses name n) {ms : List (Node × Node)} (hmem : (.str name, n) ∈ ms)
    (s : f.Slots) : (f.fill s ms).Refused := by
  induction ms generalizing s with
  | nil => cases hmem
  | cons m rest ih =>
    obtain ⟨k, m⟩ := m
    rw [Fields.fill]
    rcases List.mem_cons.1 hmem with heq | hmem
    · cases heq
      have own : nameOf f.names (.str name) = pure name := rfl
      rw [own, pure_bind, if_pos (List.contains_iff_mem.2 h.1)]
      exact (h.2 s).bind _
    · refine .bind_of_forall fun other => ?_
      split
      · exact .bind_of_forall fun s => ih hmem s
      · exact .bind_of_forall fun _ => ih hmem s

/-- A mapping is refused as a record with the value of a field. -/
theorem decode (h : f.Refuses name n) {ms : List (Node × Node)} (hmem : (.str name, n) ∈ ms)
    (o : Origin) : (f.decode (.map ms o)).Refused := by
  show Decoding.Refused (o.within do
    let s ← f.fill f.empty ms
    o.close
    f.finish s)
  exact ((h.fill hmem f.empty).bind _).within o

end Refuses

end Fields

namespace Codec

variable {α : Type} {c : Codec α}

/-! ## Lists -/

/-- Items are refused with one of them. -/
theorem refused_decodeItems {ns : List Node} {n : Node} (hmem : n ∈ ns)
    (h : (c.decode n).Refused) : (c.decodeItems ns).Refused := by
  induction ns with
  | nil => cases hmem
  | cons m rest ih =>
    rw [decodeItems]
    rcases List.mem_cons.1 hmem with rfl | hmem
    · exact h.bind _
    · exact .bind_of_forall fun _ => (ih hmem).bind _

/-- A list is refused with one of its items. -/
theorem refused_decodeList {ns : List Node} {n : Node} (hmem : n ∈ ns)
    (h : (c.decode n).Refused) (o : Origin) : (c.list.decode (.seq ns o)).Refused := by
  show Decoding.Refused (o.within do
    let as ← c.decodeItems ns
    o.close
    return as)
  exact ((refused_decodeItems hmem h).bind _).within o

/-! ## Texts and values -/

/-- A free value is refused with its tree. -/
theorem exists_error_ofJson {j : Json} (h : (c.decode (.ofJson j)).Refused) :
    ∃ e, c.ofJson j = .error e := by
  obtain ⟨e, he⟩ := h 0
  refine ⟨e, ?_⟩
  show Prod.fst <$> c.decode (.ofJson j) 0 = _
  rw [he]
  rfl

/-- A text is refused with its tree. -/
theorem exists_error_ofChars {s : List Char} (h : (c.decode (Json.readText s).1).Refused) :
    ∃ e, c.ofChars s = .error e := by
  obtain ⟨e, he⟩ := h 0
  refine ⟨e, ?_⟩
  show (Prod.fst <$> c.decode (Json.readText s).1 0 >>= fun value =>
    if (Json.readText s).2 then pure value else MonadExcept.throw .malformed) = _
  rw [he]
  rfl

end Codec

end TestChain
