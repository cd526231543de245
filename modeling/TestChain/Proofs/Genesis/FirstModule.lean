import TestChain.Proofs.Genesis.Built
import TestChain.Proofs.Genesis.Text

/-!
# The first module of a document

A text is read from the front, so the first member of an object is read as it was written, whatever
was written of the others (`Json.exists_readText_first`). The auth module comes first in what the
builder makes. So its state survives the text of the document, also where the states of other
modules are replaced by values that are not read back as they were
(`GenesisConfig.auth_of_buildFor`).
-/

namespace TestChain

/-! ## The first member of an object -/

namespace Reading

/-- A value without doubles is read up to what follows it. -/
theorem readNode_laidOut {l : Layout} (hl : l.Blank) {level depth fuel : Nat} {j : Json}
    (hfloat : j.NoFloat) (hdepth : depth + j.depth ≤ 127)
    (hfuel : 2 * (j.laidOut l level).length ≤ fuel) {b rest : List Char} (hb : Blanks b)
    (hrest : Follows rest) :
    readNode fuel depth (b ++ (j.laidOut l level ++ rest)) = (.ofText j, some rest) := by
  obtain ⟨t, ht, hj⟩ := exists_derives_laidOut hl level j hfloat
  rw [← node_of_value? depth t j hj hdepth]
  exact reads_of_derives ht fuel depth _ rest hfuel hrest (ht.skipBlanks_value hb rest)

/-- What is written after the first member of an object does not go on with a number. -/
theorem follows_laidOutMembers {l : Layout} (hl : l.Blank) (level : Nat)
    (rest : List (String × Json)) : Follows (Json.laidOutMembers l level rest) := by
  cases rest with
  | nil =>
    rw [Json.laidOutMembers]
    refine follows_append (hl.newLine level) ?_
    exact ⟨rfl, by decide, by decide, by decide⟩
  | cons m rest =>
    obtain ⟨name, j⟩ := m
    rw [Json.laidOutMembers]
    exact ⟨rfl, by decide, by decide, by decide⟩

end Reading

/-- The first member of an object is read as it was written, whatever follows it. -/
theorem Json.exists_readText_first {l : Layout} (hl : l.Blank) (level : Nat) (name : String)
    {j : Json} (hfloat : j.NoFloat) (hdepth : j.depth ≤ 126) (rest : List (String × Json)) :
    ∃ members whole ended, Json.readText ((Json.obj ((name, j) :: rest)).laidOut l level) =
      (.map ((.str name, .ofText j) :: members) (.text whole), ended) := by
  have key : Reading.piecesNode (name.toList.map Reading.pieceOf) = .str name := by
    rw [Reading.piecesNode, Reading.join_map_pieceOf]
    exact congrArg Node.str String.ofList_toList
  -- The text is a brace, the key, a colon, the value and what follows it.
  let value := j.laidOut l (level + 1)
  let tail := Json.laidOutMembers l level rest
  let afterKey := ':' :: (l.gap ++ (value ++ tail))
  let quoted := name.toList.flatMap escapeChar ++ ['"']
  let inside := l.newLine (level + 1) ++ '"' :: (quoted ++ afterKey)
  have text : (Json.obj ((name, j) :: rest)).laidOut l level = '\x7b' :: inside := by
    rw [Json.laidOut]
    unfold quoteText
    simp only [inside, afterKey, quoted, value, tail, List.cons_append, List.append_assoc]
  rw [text]
  let fuel := 2 * ('\x7b' :: inside).length
  have fits : 2 * value.length ≤ fuel := by
    simp only [fuel, inside, afterKey, List.length_cons, List.length_append]
    omega
  have read : Reading.readNode fuel 1 (l.gap ++ (value ++ tail)) = (.ofText j, some tail) :=
    Reading.readNode_laidOut hl hfloat (by omega) fits hl.gap
      (Reading.follows_laidOutMembers hl level rest)
  have front : Reading.skipBlanks inside = '"' :: (quoted ++ afterKey) := by
    unfold inside
    rw [Reading.skipBlanks_append (hl.newLine (level + 1)), Reading.skipBlanks_cons rfl]
  have members := Reading.readMembers_of_node
    ((Reading.skipBlanks_skipBlanks inside).trans front)
    (Reading.quoted_escaped name.toList) (Reading.skipBlanks_cons rfl) read
  rw [key] at members
  have object : Reading.readNode (fuel + 2) 0 ('\x7b' :: inside) = _ :=
    Reading.readNode_object (Reading.skipBlanks_cons rfl) ⟨_, front⟩ members
  unfold Json.readText
  rw [object]
  dsimp only
  split
  · exact ⟨_, _, _, rfl⟩
  · exact ⟨_, _, _, rfl⟩

/-! ## The first module -/

namespace GenesisDocument

variable {name : String} {state : Json}

/-- The first member of a mapping is decoded as the state of the module of its name. -/
theorem getRaw?_of_decode {members : List (Node × Node)} {whole : Bool} {left : Nat}
    {r : GenesisDocument × Nat}
    (h : decode (.map ((.str name, .ofText state) :: members) (.text whole)) left = .ok r) :
    r.1.getRaw? name = some state.sorted := by
  obtain ⟨-, left', hmembers⟩ := decode_map_ok h
  have named : (Node.str name).text = pure name := rfl
  rw [Node.membersToJson, named, pure_bind, Node.toJson_ofText, pure_bind] at hmembers
  obtain ⟨⟨others, left''⟩, -, hmodules⟩ := except_bind_ok_iff.1 hmembers
  have modules : (name, state.sorted) :: others = r.1.modules :=
    (Prod.mk.inj (Except.ok.inj hmodules)).1
  unfold getRaw?
  rw [← modules, Members.lookup_cons, if_pos rfl]

/-- The state of the first module is read back from the text of a document. -/
theorem getRaw?_of_first {d e : GenesisDocument} {rest : Members Json}
    (first : d.modules = (name, state) :: rest) (hfloat : state.NoFloat)
    (hdepth : state.depth ≤ 126) (h : ofBytes d.text.toUTF8 = .ok e) :
    e.getRaw? name = some state.sorted := by
  obtain ⟨members, whole, ended, read⟩ :=
    Json.exists_readText_first Layout.blank_pretty 0 name hfloat hdepth rest
  have text : Json.readText d.text.toList =
      (.map ((.str name, .ofText state) :: members) (.text whole), ended) := by
    unfold GenesisDocument.text Json.pretty codec
    rw [String.toList_ofList, Json.prettyChars_eq]
    dsimp only
    rw [first]
    exact read
  unfold ofBytes Codec.ofChars at h
  rw [Text.ofUtf8_toUTF8, text] at h
  obtain ⟨e', hrun, hreturn⟩ := except_bind_ok_iff.1 (mapError_ok_iff.1 h)
  obtain ⟨⟨e'', left⟩, hdecode, hfirst⟩ := except_bind_ok_iff.1 hrun
  cases hfirst
  cases ended with
  | false => cases hreturn
  | true =>
    cases hreturn
    exact getRaw?_of_decode hdecode

/-- The document begins with a state of a module. -/
def Begins (d : GenesisDocument) (name : String) (state : Json) : Prop :=
  ∃ rest, d.modules = (name, state) :: rest

variable {d : GenesisDocument}

/-- States of other modules are put in behind the first. -/
theorem Begins.insertRaw (h : d.Begins name state) {other : String} (hne : name ≠ other)
    (j : Json) : (d.insertRaw other j).Begins name state := by
  obtain ⟨rest, first⟩ := h
  refine ⟨Members.put other j rest, ?_⟩
  unfold GenesisDocument.insertRaw
  dsimp only
  rw [first]
  exact if_neg hne

/-- Another state of the first module takes its place. -/
theorem Begins.replace (h : d.Begins name state) (j : Json) :
    (d.insertRaw name j).Begins name j := by
  obtain ⟨rest, first⟩ := h
  refine ⟨rest, ?_⟩
  unfold GenesisDocument.insertRaw
  dsimp only
  rw [first]
  exact if_pos rfl

/-- Where the states of other modules are replaced, the first stays. -/
theorem Begins.foldl_insertRaw (h : d.Begins name state) {overrides : Members Json}
    (hname : name ∉ overrides.names) :
    (overrides.foldl (fun d m => d.insertRaw m.1 m.2) d).Begins name state := by
  induction overrides generalizing d with
  | nil => exact h
  | cons m rest ih =>
    obtain ⟨hne, hrest⟩ := not_or.1 fun hmem => hname (List.mem_cons.2 hmem)
    exact ih (h.insertRaw hne m.2) hrest

/-- The defaults begin with the state of the auth module. -/
theorem begins_defaults : defaults.Begins authModule (AuthState.codec.toJson .fresh) := by
  have first : (empty.insert authModule AuthState.codec .fresh).Begins authModule
      (AuthState.codec.toJson .fresh) := ⟨[], rfl⟩
  unfold defaults
  exact first
    |>.insertRaw (by decide) _ |>.insertRaw (by decide) _ |>.insertRaw (by decide) _
    |>.insertRaw (by decide) _ |>.insertRaw (by decide) _ |>.insertRaw (by decide) _
    |>.insertRaw (by decide) _

end GenesisDocument

/-! ## The accounts -/

namespace GenesisConfig

variable {c : GenesisConfig} (funded : AccountAddress)

/-- The document begins with the accounts that it was made with. -/
theorem begins_document (key : ValidatorKey) (bank : BankState) :
    (c.document key funded bank).Begins authModule
      (AuthState.codec.toJson (c.authState .fresh funded)) := by
  unfold document
  dsimp only
  refine .insertRaw (.insertRaw ?_ (by decide) _) (by decide) _
  -- The accounts take the place of the fresh ones, and the other states come behind them.
  have accounts := GenesisDocument.begins_defaults.replace
    (AuthState.codec.toJson (c.authState .fresh funded))
  split
  · exact .insertRaw (.insertRaw (.insertRaw accounts (by decide) _) (by decide) _) (by decide) _
  · exact .insertRaw (.insertRaw accounts (by decide) _) (by decide) _

variable {funded} in
/-- The accounts of the configuration are those of the document as it is read, whatever states of
other modules are replaced. -/
theorem auth_of_buildFor {key k : ValidatorKey} {d e : GenesisDocument}
    (hauth : authModule ∉ c.moduleOverrides.names)
    (built : c.buildFor .defaults key funded = .ok (d, k))
    (read : GenesisDocument.ofBytes d.text.toUTF8 = .ok e) :
    e.get authModule AuthState.codec = .ok (c.authState .fresh funded) := by
  obtain ⟨-, made, -, -⟩ := buildFor_ok_iff.1 built
  rw [assemble_defaults] at made
  cases hbank : c.bankState? .fresh funded 1 with
  | none =>
    rw [hbank] at made
    cases made
  | some bank =>
    rw [hbank] at made
    cases made
    obtain ⟨rest, first⟩ := (begins_document funded key bank).foldl_insertRaw hauth
    have faithful := AuthState.faithful_codec (c.authState .fresh funded)
    have tidy := Json.tidy_sorted 3 _ faithful.tidy
    have state := GenesisDocument.getRaw?_of_first first tidy.noFloat
      (Nat.le_trans tidy.depth_le (by decide)) read
    have sorted : (AuthState.codec.toJson (c.authState .fresh funded)).sorted =
        AuthState.codec.toJson (c.authState .fresh funded) := Json.sorted_sorted _
    unfold GenesisDocument.get
    rw [state, sorted]
    dsimp only
    rw [GenesisDocument.decodeState, faithful.ofJson]
    rfl

end GenesisConfig

end TestChain
