import TestChain.Proofs.Codec.Refused

/-!
# Texts that are nested too deeply

A container that stands in more than 126 others has no value. So a free value is refused where its
containers are nested too deeply (`Reading.refused_toJson`), and with it every record it is a part
of. The members of an object that is not nested too deeply itself have trees of their own
(`Reading.exists_memberNode`).
-/

namespace TestChain

namespace Reading

mutual

/-- A value whose containers are nested too deeply is refused. -/
theorem refused_toJson (depth : Nat) (hdepth : depth ≤ 127) : (t : Term) → (j : Json) →
    t.value? = some j → 127 < depth + j.depth → (t.node depth).toJson.Refused
  | .null, _, h, deep => by
    cases h
    exact absurd deep (Nat.not_lt.2 hdepth)
  | .bool _, _, h, deep => by
    cases h
    exact absurd deep (Nat.not_lt.2 hdepth)
  | .num x, j, h, deep => by
    rw [Term.value?, Option.map_eq_some_iff] at h
    obtain ⟨n, -, rfl⟩ := h
    exact absurd deep (Nat.not_lt.2 hdepth)
  | .str ps, j, h, deep => by
    rw [Term.value?, Option.map_eq_some_iff] at h
    obtain ⟨cs, -, rfl⟩ := h
    exact absurd deep (Nat.not_lt.2 hdepth)
  | .arr ts, j, h, deep => by
    rw [Term.value?, Option.map_eq_some_iff] at h
    obtain ⟨js, hjs, rfl⟩ := h
    rw [Json.depth] at deep
    rw [Term.node, container]
    split
    · rename_i shallow
      unfold maxDepth at shallow
      rw [Node.toJson]
      exact (refused_itemsToJson (depth + 1) (by omega) ts js hjs (by omega)).bind _
    · rw [if_pos rfl]
      exact .throw .malformed
  | .obj ms, j, h, deep => by
    rw [Term.value?, Option.map_eq_some_iff] at h
    obtain ⟨js, hjs, rfl⟩ := h
    rw [Json.depth] at deep
    rw [Term.node, container]
    split
    · rename_i shallow
      unfold maxDepth at shallow
      rw [Node.toJson]
      exact (refused_membersToJson (depth + 1) (by omega) ms js hjs (by omega)).bind _
    · rw [if_pos rfl]
      exact .throw .malformed

/-- Items of which one is nested too deeply are refused. -/
theorem refused_itemsToJson (depth : Nat) (hdepth : depth ≤ 127) : (ts : List Term) →
    (js : List Json) → Term.values? ts = some js → 127 < depth + Json.depthItems js →
      (Node.itemsToJson (Term.nodes depth ts)).Refused
  | [], _, h, deep => by
    cases h
    exact absurd deep (Nat.not_lt.2 hdepth)
  | t :: ts, js, h, deep => by
    rw [Term.values?] at h
    split at h
    · rename_i j rest hj hrest
      cases h
      rw [Json.depthItems] at deep
      rw [Term.nodes, Node.itemsToJson]
      by_cases first : 127 < depth + j.depth
      · exact (refused_toJson depth hdepth t j hj first).bind _
      · exact .bind_of_forall fun _ =>
          (refused_itemsToJson depth hdepth ts rest hrest (by omega)).bind _
    · cases h

/-- Members of which one is nested too deeply are refused. -/
theorem refused_membersToJson (depth : Nat) (hdepth : depth ≤ 127) :
    (ms : List (List Piece × Term)) → (js : List (String × Json)) →
      Term.memberValues? ms = some js → 127 < depth + Json.depthMembers js →
        (Node.membersToJson (Term.memberNodes depth ms)).Refused
  | [], _, h, deep => by
    cases h
    exact absurd deep (Nat.not_lt.2 hdepth)
  | (ps, t) :: ms, js, h, deep => by
    rw [Term.memberValues?] at h
    split at h
    · rename_i cs j rest hcs hj hrest
      cases h
      rw [Json.depthMembers] at deep
      rw [Term.memberNodes, Node.membersToJson]
      refine .bind_of_forall fun _ => ?_
      by_cases first : 127 < depth + j.depth
      · exact (refused_toJson depth hdepth t j hj first).bind _
      · exact .bind_of_forall fun _ =>
          (refused_membersToJson depth hdepth ms rest hrest (by omega)).bind _
    · cases h

end

/-- A term that stands for an object has members that stand for those of the object. -/
theorem exists_memberValues? {t : Term} {members : Members Json}
    (h : t.value? = some (.obj members)) :
    ∃ ms, t = .obj ms ∧ Term.memberValues? ms = some members := by
  cases t with
  | obj ms =>
    rw [Term.value?, Option.map_eq_some_iff] at h
    obtain ⟨js, hjs, hobj⟩ := h
    cases hobj
    exact ⟨ms, rfl, hjs⟩
  | arr _ | num _ | str _ =>
    rw [Term.value?, Option.map_eq_some_iff] at h
    obtain ⟨_, -, h⟩ := h
    cases h
  | null | bool _ => cases h

/-- A member has its tree among those of the members. -/
theorem exists_mem_memberNodes (depth : Nat) {ms : List (List Piece × Term)}
    {members : Members Json} (h : Term.memberValues? ms = some members) {name : String} {j : Json}
    (hmem : (name, j) ∈ members) :
    ∃ u : Term, (.str name, u.node depth) ∈ Term.memberNodes depth ms ∧ u.value? = some j := by
  induction ms generalizing members with
  | nil =>
    cases h
    cases hmem
  | cons m ms ih =>
    obtain ⟨ps, t⟩ := m
    rw [Term.memberValues?] at h
    split at h
    · rename_i cs first rest hcs hfirst hrest
      cases h
      rw [Term.memberNodes]
      rcases List.mem_cons.1 hmem with heq | hmem
      · cases heq
        refine ⟨t, ?_, hfirst⟩
        rw [piecesNode, hcs]
        exact List.mem_cons_self
      · obtain ⟨u, hu, hj⟩ := ih hrest hmem
        exact ⟨u, List.mem_cons_of_mem _ hu, hj⟩
    · cases h

/-- The members of an object that is not nested too deeply have trees of their own. -/
theorem exists_memberNode {depth : Nat} (hdepth : depth ≤ 126) {t : Term} {members : Members Json}
    (h : t.value? = some (.obj members)) {name : String} {j : Json} (hmem : (name, j) ∈ members) :
    ∃ (ns : List (Node × Node)) (u : Term), t.node depth = .map ns (.text true) ∧
      (.str name, u.node (depth + 1)) ∈ ns ∧ u.value? = some j := by
  obtain ⟨ms, rfl, hms⟩ := exists_memberValues? h
  obtain ⟨u, hu, hj⟩ := exists_mem_memberNodes (depth + 1) hms hmem
  exact ⟨_, u, by rw [Term.node, container_of_le hdepth], hu, hj⟩

end Reading

/-- The text of a value without doubles is read as the tree of a term that stands for the value,
however deep it is. -/
theorem Json.exists_readText_compactChars {j : Json} (hf : j.NoFloat) :
    ∃ t : Reading.Term, t.value? = some j ∧ Json.readText j.compactChars = (t.node 0, true) := by
  obtain ⟨t, ht, hj⟩ := Reading.exists_derives_laidOut Layout.blank_compact 0 j hf
  have writes : Reading.Writes t (j.laidOut .compact 0) :=
    ⟨[], _, [], Reading.blanks_nil, ht, Reading.blanks_nil, by simp⟩
  exact ⟨t, hj, by rw [Json.compactChars_eq 0, Json.readText_of_writes writes]⟩

namespace Codec

open Reading (Term)

variable {α : Type} {depth : Nat} {t : Term}

/-- A dictionary is refused with the value of a member. -/
theorem refused_dictionary {c : Codec α} {ns : List (Node × Node)} {k n : Node}
    (hmem : (k, n) ∈ ns) (h : (c.decode n).Refused) (o : Origin) :
    (c.dictionary.decode (.map ns o)).Refused := by
  have members (sofar : Members α) : (c.decodeMembers sofar ns).Refused := by
    induction ns generalizing sofar with
    | nil => cases hmem
    | cons m rest ih =>
      obtain ⟨key, m⟩ := m
      rw [decodeMembers]
      refine .bind_of_forall fun _ => ?_
      rcases List.mem_cons.1 hmem with heq | hmem
      · cases heq
        exact h.bind _
      · exact .bind_of_forall fun _ => ih hmem _
  show Decoding.Refused (o.within do
    let as ← c.decodeMembers [] ns
    o.close
    return as)
  exact ((members []).bind _).within o

/-- A dictionary of free values is refused in a text if one of them is nested too deeply. -/
theorem refused_dictionary_node (hdepth : depth ≤ 126) {o : Members Json}
    (hvalue : t.value? = some ((Codec.dictionary .json).encode o)) {m : String × Json}
    (hmem : m ∈ o) (deep : 127 < depth + 1 + m.2.depth) :
    ((Codec.dictionary .json).decode (t.node depth)).Refused := by
  obtain ⟨ns, u, hnode, hu, hj⟩ :=
    Reading.exists_memberNode hdepth hvalue (List.mem_map_of_mem hmem)
  rw [hnode]
  exact refused_dictionary hu (Reading.refused_toJson (depth + 1) (by omega) u m.2 hj deep) _

/-- A record is refused in a text if the value of a field is. -/
theorem refused_record_node (hdepth : depth ≤ 126) {f : Fields α} {a : α} {name : String} {j : Json}
    (hvalue : t.value? = some ((Codec.record f).encode a)) (hmem : (name, j) ∈ f.write a)
    (h : ∀ u : Term, u.value? = some j → f.Refuses name (u.node (depth + 1))) :
    ((Codec.record f).decode (t.node depth)).Refused := by
  obtain ⟨ns, u, hnode, hu, hj⟩ := Reading.exists_memberNode hdepth hvalue hmem
  rw [hnode]
  exact (h u hj).decode hu _

end Codec

end TestChain
