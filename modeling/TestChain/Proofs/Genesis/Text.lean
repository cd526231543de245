import Mathlib.Data.List.Nodup
import TestChain.Proofs.Codec.Documents
import TestChain.Proofs.Outcome

/-!
# Texts of documents

A document whose states are free values without doubles is read back from its text
(`GenesisDocument.ofBytes_text_of_free`). A text in which two keys of the document stand for one
name is refused, whatever else is in it (`GenesisDocument.exists_error_of_repeats`), while of
repeated names deeper in it the last one counts (`GenesisDocument.ofBytes_of_value?`,
`Json.get?_sorted`).
-/

namespace TestChain

namespace Json

/-! ## Free values -/

/-- Members have no name twice in an object if none of their values has. -/
theorem distinctMembers_iff {members : List (String × Json)} :
    DistinctMembers members ↔ ∀ m ∈ members, m.2.Distinct := by
  induction members with
  | nil => exact iff_of_true trivial (List.forall_mem_nil _)
  | cons m rest ih =>
    rw [List.forall_mem_cons, ← ih]
    exact Iff.rfl

mutual

/-- No object in a free value has a name twice. -/
theorem distinct_sorted : (j : Json) → j.sorted.Distinct
  | .null => trivial
  | .bool _ => trivial
  | .num _ => trivial
  | .str _ => trivial
  | .arr items => distinctItems_sortedItems items
  | .obj members => by
    refine ⟨(Members.inOrder_sorted _).nodup, distinctMembers_iff.2 fun m hm => ?_⟩
    exact distinctMembers_iff.1 (distinctMembers_sortedMembers members) m
      (Members.mem_of_mem_sorted hm)

/-- No object in sorted items has a name twice. -/
theorem distinctItems_sortedItems : (items : List Json) → DistinctItems (sortedItems items)
  | [] => trivial
  | j :: rest => ⟨distinct_sorted j, distinctItems_sortedItems rest⟩

/-- No object in sorted values of members has a name twice. -/
theorem distinctMembers_sortedMembers : (members : List (String × Json)) →
    DistinctMembers (sortedMembers members)
  | [] => trivial
  | (_, j) :: rest => ⟨distinct_sorted j, distinctMembers_sortedMembers rest⟩

end

/-- Of several members with one name a free value has the last. -/
theorem get?_sorted (members : Members Json) (name : String) :
    (Json.obj members).sorted.get? name = (members.reverse.lookup name).map Json.sorted := by
  rw [sorted, get?, Members.lookup_sorted, sortedMembers_eq, ← List.map_reverse,
    Members.lookup_map]

/-- The items of an array are sorted one by one. -/
theorem sorted_arr (items : List Json) :
    (Json.arr items).sorted = .arr (items.map Json.sorted) := by
  have parts : sortedItems items = items.map Json.sorted := by
    induction items with
    | nil => rfl
    | cons j rest ih => rw [sortedItems, ih, List.map_cons]
  rw [sorted, parts]

end Json

namespace GenesisDocument

open Reading (Piece Term Quoted Derives Writes blanks_nil)

/-! ## Documents of texts -/

/-- Modules that are added one after the other come behind those that are there. -/
theorem modules_of_foldlM_addEntry {rest : Members Json} {d e : GenesisDocument}
    (h : rest.foldlM addEntry d = .ok e) : e.modules = d.modules ++ rest := by
  induction rest generalizing d with
  | nil =>
    cases h
    exact (List.append_nil _).symm
  | cons m rest ih =>
    obtain ⟨name, j⟩ := m
    rw [List.foldlM_cons, except_bind_ok_iff] at h
    obtain ⟨next, hnext, hrest⟩ := h
    unfold addEntry at hnext
    split at hnext
    · cases hnext
    · rename_i hnew
      cases hnext
      have absent : name ∉ d.modules.names := fun hmem => hnew (by
        unfold contains getRaw?
        exact Members.mem_names_iff_lookup.1 hmem)
      rw [ih hrest]
      show Members.put name j d.modules ++ rest = d.modules ++ (name, j) :: rest
      rw [Members.put_of_not_mem j absent, List.append_assoc]
      rfl

/-- Entries make up the document of which they are the modules, and no other. -/
theorem ofEntries_eq_ok_iff {entries : Members Json} {d : GenesisDocument} :
    ofEntries entries = .ok d ↔ d.modules = entries := by
  constructor
  · exact fun h => modules_of_foldlM_addEntry h
  · rintro rfl
    exact ofEntries_modules d

/-- A free value has a member for every key of a mapping, in order, under the name that the key
stands for. -/
theorem names_of_membersToJson {depth left : Nat} {ms : List (List Piece × Term)}
    {r : Members Json × Nat} (h : Node.membersToJson (Term.memberNodes depth ms) left = .ok r) :
    ms.map (fun m => (Reading.join m.1).map String.ofList) = (Members.names r.1).map some := by
  induction ms generalizing left r with
  | nil =>
    cases h
    rfl
  | cons m ms ih =>
    obtain ⟨ps, t⟩ := m
    rw [Term.memberNodes, Node.membersToJson] at h
    -- The key is decoded first, and it stands for a name only if it is a text.
    obtain ⟨⟨name, left₁⟩, hname, h⟩ := except_bind_ok_iff.1 h
    obtain ⟨⟨j, left₂⟩, -, h⟩ := except_bind_ok_iff.1 h
    obtain ⟨⟨rest, left₃⟩, hrest, h⟩ := except_bind_ok_iff.1 h
    cases h
    have key : (Reading.join ps).map String.ofList = some name := by
      unfold Reading.piecesNode at hname
      cases hps : Reading.join ps with
      | none =>
        rw [hps] at hname
        cases hname
      | some cs =>
        rw [hps] at hname
        cases hname
        rfl
    rw [List.map_cons, ih hrest, key]
    rfl

/-- A mapping of a text is decoded only if it is whole, as the document of the free values of its
members. -/
theorem decode_map_ok {members : List (Node × Node)} {whole : Bool} {left : Nat}
    {r : GenesisDocument × Nat} (h : decode (.map members (.text whole)) left = .ok r) :
    whole = true ∧ ∃ left', Node.membersToJson members left = .ok (r.1.modules, left') := by
  obtain ⟨⟨entries, left₁⟩, hentries, h⟩ := except_bind_ok_iff.1 (mapError_ok_iff.1 h)
  cases whole with
  | false => cases h
  | true =>
    refine ⟨rfl, left₁, ?_⟩
    have complete : (Origin.text true).Complete := .inl rfl
    simp only [complete.close, pure_bind] at h
    cases hd : ofEntries entries with
    | ok d =>
      rw [hd] at h
      cases h
      rw [hentries, ofEntries_eq_ok_iff.1 hd]
    | error e =>
      rw [hd] at h
      cases h

/-- The modules of a document that was read have the names that the keys of its text stand for. -/
theorem names_of_ofBytes {s : String} {ms : List (List Piece × Term)} {d : GenesisDocument}
    (hs : Writes (.obj ms) s.toList) (h : ofBytes s.toUTF8 = .ok d) :
    ms.map (fun m => (Reading.join m.1).map String.ofList) = d.names.map some := by
  have tree : (Term.obj ms).node 0 = .map (Term.memberNodes 1 ms) (.text true) := rfl
  unfold ofBytes Codec.ofChars at h
  rw [Text.ofUtf8_toUTF8, Json.readText_of_writes hs, tree] at h
  obtain ⟨e, hrun, hreturn⟩ := except_bind_ok_iff.1 (mapError_ok_iff.1 h)
  obtain ⟨⟨e', left⟩, hdecode, hfirst⟩ := except_bind_ok_iff.1 hrun
  obtain ⟨-, left', hmembers⟩ := decode_map_ok hdecode
  cases hfirst
  cases hreturn
  exact names_of_membersToJson hmembers

/-- Two of the keys stand for one name. -/
def Repeats (ms : List (List Piece × Term)) : Prop :=
  ∃ (i j : Nat) (ps qs : List Piece) (t u : Term) (cs : List Char), i < j ∧
    ms[i]? = some (ps, t) ∧ ms[j]? = some (qs, u) ∧ Reading.join ps = some cs ∧
      Reading.join qs = some cs

/-- A text in which two keys of the document stand for one name is refused. -/
theorem exists_error_of_repeats {s : String} {ms : List (List Piece × Term)}
    (hs : Writes (.obj ms) s.toList) (h : Repeats ms) : ∃ e, ofBytes s.toUTF8 = .error e := by
  obtain ⟨i, j, ps, qs, t, u, cs, hij, hi, hj, hps, hqs⟩ := h
  cases h : ofBytes s.toUTF8 with
  | error e => exact ⟨e, rfl⟩
  | ok d =>
    have names := names_of_ofBytes hs h
    have found : ∀ {k : Nat} {ps t}, ms[k]? = some (ps, t) → Reading.join ps = some cs →
        d.names[k]? = some (String.ofList cs) := fun {k ps t} hk hps => by
      have there := congrArg (·[k]?) names
      simp only [List.getElem?_map, hk, Option.map_some, hps] at there
      obtain ⟨name, hname, hcs⟩ := Option.map_eq_some_iff.1 there.symm
      rw [hname, Option.some.inj hcs]
    -- No document has a name in two places.
    have last := found hj hqs
    have inside := (List.getElem?_eq_some_iff.1 last).1
    have distinct := List.nodup_iff_getElem?_ne_getElem?.1 d.nodup i j hij inside
    exact absurd ((found hi hps).trans last.symm) distinct

/-- A text that stands for an object is read as the document of the members' free values. -/
theorem ofBytes_of_value? {s : String} {t : Term} {members : Members Json}
    (hs : Writes t s.toList) (hvalue : t.value? = some (.obj members))
    (hdepth : (Json.obj members).depth ≤ 127) (hnodup : members.names.Nodup) :
    ∃ d, ofBytes s.toUTF8 = .ok d ∧ d.modules = members.map fun m => (m.1, m.2.sorted) := by
  have nodup : (Members.names (Json.sortedMembers members)).Nodup :=
    Json.names_sortedMembers members ▸ hnodup
  refine ⟨⟨_, nodup⟩, ?_, Json.sortedMembers_eq members⟩
  exact ofBytes_of_readText rfl (Json.readText_of_value? hs hvalue hdepth)

/-- A document whose states are free values without doubles is read back from its text. -/
theorem ofBytes_text_of_free {d : GenesisDocument} (hfloat : (Json.obj d.modules).NoFloat)
    (hdepth : (Json.obj d.modules).depth ≤ 127) (hfree : ∀ m ∈ d.modules, m.2.sorted = m.2) :
    ofBytes d.text.toUTF8 = .ok d := by
  have distinct : (Json.obj d.modules).Distinct := by
    refine ⟨d.nodup, Json.distinctMembers_iff.2 fun m hm => ?_⟩
    rw [← hfree m hm]
    exact Json.distinct_sorted m.2
  have tidy : (Json.obj d.modules).Tidy 127 := ⟨hfloat, distinct, hdepth⟩
  obtain ⟨e, he, -, hmembers⟩ := tidy.members
  cases he
  exact ofBytes_text fun m hm => ⟨hmembers m hm, hfree m hm⟩

/-- A document without doubles that is nested at most 127 deep is read back from its text. A text
in which two keys of the document stand for one name is refused, and of several members with one
name deeper in a text the last one counts, in every object that stands in an array or an object. -/
theorem text_roundtrip :
    (∀ d : GenesisDocument, (Json.obj d.modules).NoFloat → (Json.obj d.modules).depth ≤ 127 →
      (∀ m ∈ d.modules, m.2.sorted = m.2) → ofBytes d.text.toUTF8 = .ok d) ∧
    (∀ (s : String) (ms : List (List Piece × Term)), Writes (.obj ms) s.toList → Repeats ms →
      ∃ e, ofBytes s.toUTF8 = .error e) ∧
    (∀ (s : String) (t : Term) (members : Members Json), Writes t s.toList →
      t.value? = some (.obj members) → (Json.obj members).depth ≤ 127 → members.names.Nodup →
      ∃ d, ofBytes s.toUTF8 = .ok d ∧ d.modules = members.map fun m => (m.1, m.2.sorted)) ∧
    (∀ (members : Members Json) (name : String),
      (Json.obj members).sorted.get? name = (members.reverse.lookup name).map Json.sorted) ∧
    ∀ items : List Json, (Json.arr items).sorted = .arr (items.map Json.sorted) := by
  refine ⟨fun d hfloat hdepth hfree => ?_, fun s ms hs h => ?_,
    fun s t members hs hvalue hdepth hnodup => ?_, Json.get?_sorted, Json.sorted_arr⟩
  · exact ofBytes_text_of_free hfloat hdepth hfree
  · exact exists_error_of_repeats hs h
  · exact ofBytes_of_value? hs hvalue hdepth hnodup

/-- A document is read back, a text that names a module twice, once by the number of its letter, is
refused, and a text that repeats a name in a state is read with the last value. -/
theorem text_roundtrip_of_small :
    let bank := Json.obj [("height", .nat 7), ("supply", .arr [.null, .bool true])]
    let d : GenesisDocument := ⟨[("bank", bank), ("auth", .str "\"")], by decide⟩
    ofBytes d.text.toUTF8 = .ok d ∧
    (∃ e, ofBytes "\x7b\"a\":1, \"\\u0061\":2\x7d".toUTF8 = .error e) ∧
    ∃ e, ofBytes "\x7b\"a\":\x7b\"b\":1,\"b\":2\x7d\x7d".toUTF8 = .ok e ∧
      e.modules = [("a", .obj [("b", .nat 2)])] := by
  intro bank d
  obtain ⟨written, repeated, last, -, -⟩ := text_roundtrip
  have one (n : Nat) : Derives (.value (.num ⟨false, Text.natDigits 10 n, none, none⟩))
      (Text.natDigits 10 n) := .num rfl (Reading.numeralText_natDigits false n)
  have a : Quoted [.char 'a'] ['a', '"'] :=
    .piece (.plain (by decide) (by decide) (by decide)) .close
  have unit : Quoted [.unit 97] ['\\', 'u', '0', '0', '6', '1', '"'] :=
    .piece (.unit rfl) .close
  have b : Quoted [.char 'b'] ['b', '"'] :=
    .piece (.plain (by decide) (by decide) (by decide)) .close
  have blank : Reading.Blanks [' '] := List.forall_mem_singleton.2 rfl
  refine ⟨written d ⟨⟨trivial, ⟨trivial, trivial, trivial⟩, trivial⟩, trivial, trivial⟩ (by decide)
    (List.forall_mem_cons.2 ⟨rfl, List.forall_mem_singleton.2 rfl⟩), ?_, ?_⟩
  · have object := Derives.obj (.members blanks_nil a blanks_nil blanks_nil (one 1)
      (.nextMember blanks_nil (.members blank unit blanks_nil blanks_nil (one 2)
        (.lastMember blanks_nil))))
    exact repeated _ _ ⟨[], _, [], blanks_nil, object, blanks_nil, rfl⟩
      ⟨0, 1, _, _, _, _, _, by decide, rfl, rfl, rfl, rfl⟩
  · have inner := Derives.obj (.members blanks_nil b blanks_nil blanks_nil (one 1)
      (.nextMember blanks_nil (.members blanks_nil b blanks_nil blanks_nil (one 2)
        (.lastMember blanks_nil))))
    have object := Derives.obj (.members blanks_nil a blanks_nil blanks_nil inner
      (.lastMember blanks_nil))
    obtain ⟨e, he, hmodules⟩ := last "\x7b\"a\":\x7b\"b\":1,\"b\":2\x7d\x7d" _
      [("a", .obj [("b", .nat 1), ("b", .nat 2)])]
      ⟨[], _, [], blanks_nil, object, blanks_nil, rfl⟩ rfl (by decide) (by decide)
    exact ⟨e, he, hmodules.trans rfl⟩

end GenesisDocument

end TestChain
