import TestChain.Genesis.Document
import TestChain.Proofs.Bytes.Framed
import TestChain.Proofs.Json.Alike
import TestChain.Proofs.Number.Length

/-!
# The state hash identifies the states

Every value is told from what follows its encoding (`StateHash.valueBytes_append_eq_iff`): its first
byte says what kind of value it is, and lengths stand in front of texts and counts in front of items
and members. As members are written in the order of their names, two values have the same encoding
exactly when they are alike.
-/

namespace TestChain

namespace StateHash

/-- The length of the text in bytes fits in the four bytes that it is written in. -/
def Short (s : String) : Prop :=
  (Bytes.ofString s).length < UInt32.size

instance (s : String) : Decidable (Short s) :=
  inferInstanceAs (Decidable ((Bytes.ofString s).length < UInt32.size))

/-- No name comes twice, and the count of the members and the lengths of their names fit in four
bytes. -/
structure Listable (ms : Members Json) : Prop where
  /-- There are not too many members. -/
  length_lt : ms.length < UInt32.size
  /-- No name comes twice. -/
  nodup : ms.names.Nodup
  /-- The names are short. -/
  short : ∀ m ∈ ms, Short m.1

/-- All lengths in the value fit in four bytes, and no object has a name twice. -/
inductive Encodable : Json → Prop where
  /-- The absent value. -/
  | null : Encodable .null
  /-- A truth value. -/
  | bool (b : Bool) : Encodable (.bool b)
  /-- A number, whose text is always short. -/
  | num (n : Number) : Encodable (.num n)
  /-- A short text. -/
  | str {s : String} (hs : Short s) : Encodable (.str s)
  /-- An array that is not too long. -/
  | arr {items : List Json} (hlength : items.length < UInt32.size)
      (hitems : ∀ j ∈ items, Encodable j) : Encodable (.arr items)
  /-- An object that is not too long, with short names. -/
  | obj {members : Members Json} (hmembers : Listable members)
      (hvalues : ∀ m ∈ members, Encodable m.2) : Encodable (.obj members)

/-! ## Texts and members -/

/-- A text is told from what follows it. -/
theorem stringBytes_append_eq_iff {a b : String} {r s : Bytes} (ha : Short a) (hb : Short b) :
    stringBytes a ++ r = stringBytes b ++ s ↔ a = b ∧ r = s := by
  have size : UInt32.size = 256 ^ 4 := by decide
  constructor
  · intro h
    obtain ⟨bytes, rest⟩ := Bytes.framed_append_inj (size ▸ ha) (size ▸ hb) h
    exact ⟨Bytes.ofString_inj bytes, rest⟩
  · rintro ⟨rfl, rfl⟩
    rfl

/-- A count is told from what follows it. -/
theorem lengthBytes_append_eq_iff {m n : Nat} {r s : Bytes} (hm : m < UInt32.size)
    (hn : n < UInt32.size) : lengthBytes m ++ r = lengthBytes n ++ s ↔ m = n ∧ r = s := by
  have size : UInt32.size = 256 ^ 4 := by decide
  constructor
  · exact fun h => Bytes.bigEndian_append_inj (size ▸ hm) (size ▸ hn) h
  · rintro ⟨rfl, rfl⟩
    rfl

/-- Items are encoded one after the other. -/
theorem itemsBytes_eq (items : List Json) : itemsBytes items = items.flatMap valueBytes := by
  induction items with
  | nil => rfl
  | cons j rest ih => rw [itemsBytes, ih, List.flatMap_cons]

/-- Members' values are encoded one by one. -/
theorem membersBytes_eq (members : Members Json) :
    membersBytes members = members.map fun m => (m.1, valueBytes m.2) := by
  induction members with
  | nil => rfl
  | cons m rest ih =>
    obtain ⟨name, j⟩ := m
    rw [membersBytes, ih, List.map_cons]

/-- A member as bytes. -/
def entryBytes (m : String × Json) : Bytes :=
  stringBytes m.1 ++ valueBytes m.2

/-- Members are encoded one after the other in the order of their names. -/
theorem memberBytes_membersBytes (members : Members Json) :
    memberBytes (membersBytes members) = members.sorted.flatMap entryBytes := by
  rw [memberBytes, membersBytes_eq, ← Members.map_sorted, List.flatMap_map]
  rfl

/-- Parts with their count in front are told from what follows them if each one is. -/
theorem counted_append_eq_iff {α : Type} {f : α → Bytes} {R : α → α → Prop} {l m : List α}
    {r s : Bytes} (hl : l.length < UInt32.size) (hm : m.length < UInt32.size)
    (told : ∀ a ∈ l, ∀ b ∈ m, ∀ r s, f a ++ r = f b ++ s ↔ R a b ∧ r = s) :
    lengthBytes l.length ++ l.flatMap f ++ r = lengthBytes m.length ++ m.flatMap f ++ s ↔
      List.Forall₂ R l m ∧ r = s := by
  rw [List.append_assoc, List.append_assoc, lengthBytes_append_eq_iff hl hm]
  constructor
  · rintro ⟨count, parts⟩
    exact (Bytes.flatMap_append_eq_iff count told).1 parts
  · intro parts
    have count := parts.1.length_eq
    exact ⟨count, (Bytes.flatMap_append_eq_iff count told).2 parts⟩

/-- Members with their count in front are told from what follows them if their values are. -/
theorem memberBytes_append_eq_iff {ms ns : Members Json} {r s : Bytes} (hms : Listable ms)
    (hns : Listable ns)
    (told : ∀ m ∈ ms, ∀ n ∈ ns, ∀ r s,
      valueBytes m.2 ++ r = valueBytes n.2 ++ s ↔ m.2.Alike n.2 ∧ r = s) :
    lengthBytes ms.length ++ memberBytes (membersBytes ms) ++ r =
        lengthBytes ns.length ++ memberBytes (membersBytes ns) ++ s ↔
      ms.Matching Json.Alike ns ∧ r = s := by
  have permMs := Members.perm_sorted hms.nodup
  have permNs := Members.perm_sorted hns.nodup
  rw [memberBytes_membersBytes, memberBytes_membersBytes,
    ← Members.forall₂_sorted_iff hms.nodup hns.nodup, ← permMs.length_eq, ← permNs.length_eq]
  refine counted_append_eq_iff (permMs.length_eq ▸ hms.length_lt) (permNs.length_eq ▸ hns.length_lt)
    fun m hm n hn r s => ?_
  rw [permMs.mem_iff] at hm
  rw [permNs.mem_iff] at hn
  unfold entryBytes
  rw [List.append_assoc, List.append_assoc,
    stringBytes_append_eq_iff (hms.short m hm) (hns.short n hn), told m hm n hn, and_assoc]

/-! ## Values -/

/-- The first byte of an encoding. -/
def tag : Json → UInt8
  | .null => 0
  | .bool b => if b then 2 else 1
  | .num _ => 3
  | .str _ => 4
  | .arr _ => 5
  | .obj _ => 6

/-- What follows the first byte. -/
def body : Json → Bytes
  | .null => []
  | .bool _ => []
  | .num n => stringBytes (String.ofList n.text)
  | .str s => stringBytes s
  | .arr items => lengthBytes items.length ++ itemsBytes items
  | .obj members => lengthBytes members.length ++ memberBytes (membersBytes members)

/-- A value is encoded with its tag in front. -/
theorem valueBytes_eq (j : Json) : valueBytes j = tag j :: body j := by
  cases j with
  | bool b => cases b <;> rfl
  | obj members =>
    have count : (membersBytes members).length = members.length := by
      rw [membersBytes_eq, List.length_map]
    rw [valueBytes, body, count]
    rfl
  | _ => rfl

/-- Values that are alike have the same tag. -/
theorem tag_of_alike {j k : Json} (h : j.Alike k) : tag j = tag k := by
  cases h <;> rfl

/-- Values with different tags have different encodings, so only what follows the tag counts. -/
theorem valueBytes_append_eq_iff_of_body {j k : Json} {r s : Bytes}
    (h : tag j = tag k → (body j ++ r = body k ++ s ↔ j.Alike k ∧ r = s)) :
    valueBytes j ++ r = valueBytes k ++ s ↔ j.Alike k ∧ r = s := by
  rw [valueBytes_eq, valueBytes_eq, List.cons_append, List.cons_append, List.cons.injEq]
  constructor
  · rintro ⟨htag, hbody⟩
    exact (h htag).1 hbody
  · intro halike
    have htag := tag_of_alike halike.1
    exact ⟨htag, (h htag).2 halike⟩

/-- A value is told from what follows its encoding, up to values that are alike. -/
theorem valueBytes_append_eq_iff {j k : Json} (hj : Encodable j) (hk : Encodable k)
    (r s : Bytes) : valueBytes j ++ r = valueBytes k ++ s ↔ j.Alike k ∧ r = s := by
  induction hj generalizing k r s with
  | null =>
    refine valueBytes_append_eq_iff_of_body fun htag => ?_
    cases hk with
    | null => exact (and_iff_right .null).symm
    | _ => grind [tag]
  | bool b =>
    refine valueBytes_append_eq_iff_of_body fun htag => ?_
    cases hk with
    | bool c =>
      have same : b = c := by grind [tag]
      exact same ▸ (and_iff_right (.bool b)).symm
    | _ => grind [tag]
  | num n =>
    refine valueBytes_append_eq_iff_of_body fun htag => ?_
    cases hk with
    | num m =>
      rw [body, body, stringBytes_append_eq_iff n.length_bytes m.length_bytes,
        String.ofList_inj, Json.alike_num_iff]
    | _ => grind [tag]
  | @str a ha =>
    refine valueBytes_append_eq_iff_of_body fun htag => ?_
    cases hk with
    | @str b hb =>
      rw [body, body, stringBytes_append_eq_iff ha hb, Json.alike_str_iff]
    | _ => grind [tag]
  | @arr items hlength _ ih =>
    refine valueBytes_append_eq_iff_of_body fun htag => ?_
    cases hk with
    | @arr others hlength' hothers =>
      rw [body, body, itemsBytes_eq, itemsBytes_eq, Json.alike_arr_iff]
      exact counted_append_eq_iff hlength hlength' fun a ha b hb => ih a ha (hothers b hb)
    | _ => grind [tag]
  | @obj members hmembers _ ih =>
    refine valueBytes_append_eq_iff_of_body fun htag => ?_
    cases hk with
    | @obj others hothers hvalues =>
      rw [body, body, Json.alike_obj_iff]
      exact memberBytes_append_eq_iff hmembers hothers fun a ha b hb => ih a ha (hvalues b hb)
    | _ => grind [tag]

end StateHash

namespace GenesisDocument

/-- All lengths in the document and its states fit in four bytes. -/
def Encodable (d : GenesisDocument) : Prop :=
  StateHash.Encodable (.obj d.modules)

/-- The documents have the same modules with states that are alike, in any order. -/
def Alike (d e : GenesisDocument) : Prop :=
  ∀ name, Option.Rel Json.Alike (d.getRaw? name) (e.getRaw? name)

/-- Documents are hashed as the same bytes exactly when they are alike. -/
theorem preimage_eq_iff {d e : GenesisDocument} (hd : d.Encodable) (he : e.Encodable) :
    StateHash.preimage d.modules = StateHash.preimage e.modules ↔ d.Alike e := by
  unfold Alike getRaw?
  rw [← Members.matching_iff_lookup d.nodup e.nodup]
  cases hd with
  | obj hmodules hstates =>
    cases he with
    | obj hothers hvalues =>
      have bytes := StateHash.memberBytes_append_eq_iff (r := []) (s := []) hmodules hothers
        fun m hm n hn => StateHash.valueBytes_append_eq_iff (hstates m hm) (hvalues n hn)
      rw [List.append_nil, List.append_nil] at bytes
      exact bytes.trans (and_iff_left rfl)

/-- The hashed bytes do not depend on the order of the modules. -/
theorem preimage_of_perm {d e : GenesisDocument} (h : d.modules.Perm e.modules) :
    StateHash.preimage d.modules = StateHash.preimage e.modules := by
  unfold StateHash.preimage
  rw [StateHash.memberBytes_membersBytes, StateHash.memberBytes_membersBytes,
    Members.sorted_of_perm d.nodup h, h.length_eq]

/-- The state hash is that of an encoding which documents share exactly when they have the same
modules with the same states. It does not depend on the order of the modules, and a name and a value
are told from what follows them. -/
theorem stateHash_identifies_states :
    (∀ d : GenesisDocument, d.stateHash = .of (StateHash.preimage d.modules)) ∧
    (∀ d e : GenesisDocument, d.Encodable → e.Encodable →
      (StateHash.preimage d.modules = StateHash.preimage e.modules ↔ d.Alike e)) ∧
    (∀ d e : GenesisDocument, d.modules.Perm e.modules →
      StateHash.preimage d.modules = StateHash.preimage e.modules ∧ d.stateHash = e.stateHash) ∧
    ∀ (name other : String) (j k : Json) (r s : Bytes), StateHash.Short name →
      StateHash.Short other → StateHash.Encodable j → StateHash.Encodable k →
      (StateHash.stringBytes name ++ StateHash.valueBytes j ++ r =
          StateHash.stringBytes other ++ StateHash.valueBytes k ++ s ↔
        name = other ∧ j.Alike k ∧ r = s) := by
  refine ⟨fun _ => rfl, fun d e hd he => preimage_eq_iff hd he, fun d e h => ?_, ?_⟩
  · have bytes := preimage_of_perm h
    exact ⟨bytes, congrArg Hash.of bytes⟩
  · intro name other j k r s hname hother hj hk
    rw [List.append_assoc, List.append_assoc, StateHash.stringBytes_append_eq_iff hname hother,
      StateHash.valueBytes_append_eq_iff hj hk]

/-- Two documents whose modules and members come in another order share their encoding, and the same
letters that are divided otherwise between a name and a text do not. -/
theorem stateHash_of_reordered :
    let bank := Json.obj [("supply", .arr [.null, .bool true]), ("height", .nat 7)]
    let listed := Json.obj [("height", .nat 7), ("supply", .arr [.null, .bool true])]
    let d : GenesisDocument := ⟨[("bank", bank), ("auth", .str "x")], by decide⟩
    let e : GenesisDocument := ⟨[("auth", .str "x"), ("bank", listed)], by decide⟩
    let f : GenesisDocument := ⟨[("auth", .str "x"), ("bank", bank)], by decide⟩
    (d.Encodable ∧ e.Encodable ∧ StateHash.preimage d.modules = StateHash.preimage e.modules ∧
      d.Alike e) ∧
    (d.modules.Perm f.modules ∧ d.stateHash = f.stateHash) ∧
    StateHash.stringBytes "ab" ++ StateHash.valueBytes (.str "c") ++ [] ≠
      StateHash.stringBytes "a" ++ StateHash.valueBytes (.str "bc") ++ [] := by
  intro bank listed d e f
  have auth : StateHash.Encodable (.str "x") := .str (by decide)
  have supply : StateHash.Encodable (.arr [.null, .bool true]) :=
    .arr (by decide) (List.forall_mem_cons.2 ⟨.null, List.forall_mem_singleton.2 (.bool true)⟩)
  have hbank : StateHash.Encodable bank := .obj ⟨by decide, by decide, by decide⟩
    (List.forall_mem_cons.2 ⟨supply, List.forall_mem_singleton.2 (.num _)⟩)
  have hlisted : StateHash.Encodable listed := .obj ⟨by decide, by decide, by decide⟩
    (List.forall_mem_cons.2 ⟨.num _, List.forall_mem_singleton.2 supply⟩)
  have hd : d.Encodable := .obj ⟨by decide, by decide, by decide⟩
    (List.forall_mem_cons.2 ⟨hbank, List.forall_mem_singleton.2 auth⟩)
  have he : e.Encodable := .obj ⟨by decide, by decide, by decide⟩
    (List.forall_mem_cons.2 ⟨auth, List.forall_mem_singleton.2 hlisted⟩)
  have same : StateHash.preimage d.modules = StateHash.preimage e.modules := by decide
  have swapped : d.modules.Perm f.modules := .swap _ _ _
  obtain ⟨-, byStates, byOrder, byParts⟩ := stateHash_identifies_states
  refine ⟨⟨hd, he, same, (byStates d e hd he).1 same⟩, ⟨swapped, (byOrder d f swapped).2⟩,
    fun h => ?_⟩
  have names := (byParts "ab" "a" (.str "c") (.str "bc") [] [] (by decide) (by decide)
    (.str (by decide)) (.str (by decide))).1 h
  exact absurd names.1 (by decide)

end GenesisDocument

end TestChain
