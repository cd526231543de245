import TestChain.Proofs.Json.Layout
import TestChain.Proofs.Json.Phrases

/-!
# Values are read back

What is written of a value is derived by the grammar in any layout of blanks, if what is written of
its doubles is (`Reading.exists_derives_mapDoubles`). A double need not be read back as it was, so
the value that is read may have other doubles. A value without doubles whose containers are nested
at most 127 deep is read back from its text as the tree of its parts (`Json.readText_laidOut`).
-/

namespace TestChain

namespace Json

mutual

/-- The value has no doubles. -/
def NoFloat : Json → Prop
  | .num (.float _) => False
  | .arr items => NoFloatItems items
  | .obj members => NoFloatMembers members
  | _ => True

/-- No item has doubles. -/
def NoFloatItems : List Json → Prop
  | [] => True
  | j :: rest => j.NoFloat ∧ NoFloatItems rest

/-- No member has doubles. -/
def NoFloatMembers : List (String × Json) → Prop
  | [] => True
  | (_, j) :: rest => j.NoFloat ∧ NoFloatMembers rest

end

mutual

/-- All doubles in the value have a property. -/
def Doubles (P : Float → Prop) : Json → Prop
  | .num (.float x) => P x
  | .arr items => DoublesItems P items
  | .obj members => DoublesMembers P members
  | _ => True

/-- All doubles in the items have a property. -/
def DoublesItems (P : Float → Prop) : List Json → Prop
  | [] => True
  | j :: rest => j.Doubles P ∧ DoublesItems P rest

/-- All doubles in the members have a property. -/
def DoublesMembers (P : Float → Prop) : List (String × Json) → Prop
  | [] => True
  | (_, j) :: rest => j.Doubles P ∧ DoublesMembers P rest

end

mutual

/-- The value with other doubles in place of its own. -/
def mapDoubles (f : Float → Float) : Json → Json
  | .num (.float x) => .num (.float (f x))
  | .arr items => .arr (mapDoublesItems f items)
  | .obj members => .obj (mapDoublesMembers f members)
  | .null => .null
  | .bool b => .bool b
  | .num (.whole i fits) => .num (.whole i fits)
  | .str s => .str s

/-- `mapDoubles` of every item. -/
def mapDoublesItems (f : Float → Float) : List Json → List Json
  | [] => []
  | j :: rest => mapDoubles f j :: mapDoublesItems f rest

/-- `mapDoubles` of every member's value. -/
def mapDoublesMembers (f : Float → Float) : List (String × Json) → List (String × Json)
  | [] => []
  | (name, j) :: rest => (name, mapDoubles f j) :: mapDoublesMembers f rest

end

mutual

/-- Where there are no doubles, all of them have any property. -/
theorem NoFloat.doubles (P : Float → Prop) : (j : Json) → j.NoFloat → j.Doubles P
  | .num (.float _), h => h.elim
  | .arr items, h => doublesItems_of_noFloat P items h
  | .obj members, h => doublesMembers_of_noFloat P members h
  | .null, _ => trivial
  | .bool _, _ => trivial
  | .num (.whole _ _), _ => trivial
  | .str _, _ => trivial

/-- `NoFloat.doubles` for items. -/
theorem doublesItems_of_noFloat (P : Float → Prop) : (items : List Json) → NoFloatItems items →
    DoublesItems P items
  | [], _ => trivial
  | j :: rest, h => ⟨NoFloat.doubles P j h.1, doublesItems_of_noFloat P rest h.2⟩

/-- `NoFloat.doubles` for members. -/
theorem doublesMembers_of_noFloat (P : Float → Prop) : (members : List (String × Json)) →
    NoFloatMembers members → DoublesMembers P members
  | [], _ => trivial
  | (_, j) :: rest, h => ⟨NoFloat.doubles P j h.1, doublesMembers_of_noFloat P rest h.2⟩

end

mutual

/-- Putting the same doubles in place changes nothing. -/
theorem mapDoubles_id : (j : Json) → j.mapDoubles id = j
  | .num (.float _) => rfl
  | .arr items => by rw [mapDoubles, mapDoublesItems_id items]
  | .obj members => by rw [mapDoubles, mapDoublesMembers_id members]
  | .null => rfl
  | .bool _ => rfl
  | .num (.whole _ _) => rfl
  | .str _ => rfl

/-- `mapDoubles_id` for items. -/
theorem mapDoublesItems_id : (items : List Json) → mapDoublesItems id items = items
  | [] => rfl
  | j :: rest => by rw [mapDoublesItems, mapDoubles_id j, mapDoublesItems_id rest]

/-- `mapDoubles_id` for members. -/
theorem mapDoublesMembers_id : (members : List (String × Json)) →
    mapDoublesMembers id members = members
  | [] => rfl
  | (_, j) :: rest => by rw [mapDoublesMembers, mapDoubles_id j, mapDoublesMembers_id rest]

end

mutual

/-- The number of containers nested in one another. -/
def depth : Json → Nat
  | .arr items => 1 + depthItems items
  | .obj members => 1 + depthMembers members
  | _ => 0

/-- The largest depth of an item. -/
def depthItems : List Json → Nat
  | [] => 0
  | j :: rest => max j.depth (depthItems rest)

/-- The largest depth of a member. -/
def depthMembers : List (String × Json) → Nat
  | [] => 0
  | (_, j) :: rest => max j.depth (depthMembers rest)

end

mutual

/-- Other doubles do not change how deep a value is nested. -/
theorem depth_mapDoubles (f : Float → Float) : (j : Json) → (j.mapDoubles f).depth = j.depth
  | .num (.float _) => rfl
  | .arr items => by rw [mapDoubles, depth, depth, depthItems_mapDoubles f items]
  | .obj members => by rw [mapDoubles, depth, depth, depthMembers_mapDoubles f members]
  | .null => rfl
  | .bool _ => rfl
  | .num (.whole _ _) => rfl
  | .str _ => rfl

/-- `depth_mapDoubles` for items. -/
theorem depthItems_mapDoubles (f : Float → Float) : (items : List Json) →
    depthItems (mapDoublesItems f items) = depthItems items
  | [] => rfl
  | j :: rest => by
    rw [mapDoublesItems, depthItems, depthItems, depth_mapDoubles f j, depthItems_mapDoubles f rest]

/-- `depth_mapDoubles` for members. -/
theorem depthMembers_mapDoubles (f : Float → Float) : (members : List (String × Json)) →
    depthMembers (mapDoublesMembers f members) = depthMembers members
  | [] => rfl
  | (_, j) :: rest => by
    rw [mapDoublesMembers, depthMembers, depthMembers, depth_mapDoubles f j,
      depthMembers_mapDoubles f rest]

end

end Json

namespace Node

mutual

/-- A value as the tree of its text. -/
def ofText : Json → Node
  | .null => .null
  | .bool b => .bool b
  | .num n => .num n
  | .str s => .str s
  | .arr items => .seq (ofTextItems items) (.text true)
  | .obj members => .map (ofTextMembers members) (.text true)

/-- `ofText` of every item. -/
def ofTextItems : List Json → List Node
  | [] => []
  | j :: rest => ofText j :: ofTextItems rest

/-- `ofText` of every member's value. -/
def ofTextMembers : List (String × Json) → List (Node × Node)
  | [] => []
  | (name, j) :: rest => (.str name, ofText j) :: ofTextMembers rest

end

end Node

/-- The layout has nothing but blanks between the tokens. -/
structure Layout.Blank (l : Layout) : Prop where
  /-- Between items and members. -/
  newLine : ∀ level, Reading.Blanks (l.newLine level)
  /-- After colons. -/
  gap : Reading.Blanks l.gap

/-- The layout without blanks has none. -/
theorem Layout.blank_compact : Layout.compact.Blank :=
  ⟨fun _ _ h => (nomatch h), fun _ h => (nomatch h)⟩

/-- The layout with one item or member a line has blanks only. -/
theorem Layout.blank_pretty : Layout.pretty.Blank := by
  refine ⟨fun level c h => ?_, fun c h => ?_⟩
  · rcases List.mem_cons.1 h with rfl | h
    · rfl
    · rw [List.eq_of_mem_replicate h]
      rfl
  · rw [List.mem_singleton.1 h]
    rfl

namespace Reading

/-- A container that is not nested too deeply is its node. -/
theorem container_of_le {depth : Nat} (h : depth ≤ maxDepth) (node : Node) (whole : Bool) :
    container depth node whole = node :=
  if_pos h

mutual

/-- The tree of a term is the tree of its value, if it is not nested too deeply. -/
theorem node_of_value? (depth : Nat) : (t : Term) → (j : Json) → t.value? = some j →
    depth + j.depth ≤ 127 → t.node depth = .ofText j
  | .null, _, h, _ => by
    cases h
    rfl
  | .bool _, _, h, _ => by
    cases h
    rfl
  | .num x, j, h, _ => by
    rw [Term.value?, Option.map_eq_some_iff] at h
    obtain ⟨n, hn, rfl⟩ := h
    rw [Term.node, numeralNode, hn]
    rfl
  | .str ps, j, h, _ => by
    rw [Term.value?, Option.map_eq_some_iff] at h
    obtain ⟨cs, hcs, rfl⟩ := h
    rw [Term.node, piecesNode, hcs]
    rfl
  | .arr ts, j, h, hd => by
    rw [Term.value?, Option.map_eq_some_iff] at h
    obtain ⟨js, hjs, rfl⟩ := h
    rw [Json.depth] at hd
    have shallow : depth ≤ maxDepth := by
      unfold maxDepth
      omega
    rw [Term.node, container_of_le shallow, nodes_of_values? (depth + 1) ts js hjs (by omega)]
    rfl
  | .obj ms, j, h, hd => by
    rw [Term.value?, Option.map_eq_some_iff] at h
    obtain ⟨js, hjs, rfl⟩ := h
    rw [Json.depth] at hd
    have shallow : depth ≤ maxDepth := by
      unfold maxDepth
      omega
    rw [Term.node, container_of_le shallow,
      memberNodes_of_memberValues? (depth + 1) ms js hjs (by omega)]
    rfl

/-- The trees of items are the trees of their values. -/
theorem nodes_of_values? (depth : Nat) : (ts : List Term) → (js : List Json) →
    Term.values? ts = some js → depth + Json.depthItems js ≤ 127 →
      Term.nodes depth ts = Node.ofTextItems js
  | [], _, h, _ => by
    cases h
    rfl
  | t :: ts, js, h, hd => by
    rw [Term.values?] at h
    split at h
    · rename_i j rest hj hrest
      cases h
      rw [Json.depthItems] at hd
      rw [Term.nodes, node_of_value? depth t j hj (by omega),
        nodes_of_values? depth ts rest hrest (by omega)]
      rfl
    · cases h

/-- The trees of members are the trees of their values. -/
theorem memberNodes_of_memberValues? (depth : Nat) : (ms : List (List Piece × Term)) →
    (js : List (String × Json)) → Term.memberValues? ms = some js →
      depth + Json.depthMembers js ≤ 127 → Term.memberNodes depth ms = Node.ofTextMembers js
  | [], _, h, _ => by
    cases h
    rfl
  | (ps, t) :: ms, js, h, hd => by
    rw [Term.memberValues?] at h
    split at h
    · rename_i cs j rest hcs hj hrest
      cases h
      rw [Json.depthMembers] at hd
      rw [Term.memberNodes, piecesNode, hcs, node_of_value? depth t j hj (by omega),
        memberNodes_of_memberValues? depth ms rest hrest (by omega)]
      rfl
    · cases h

end

/-- A whole number is written as a numeral. -/
theorem derives_intText (i : Int) : Derives (.value (.num (wholeNumeral i))) (intText i) := by
  have digits := numeralText_natDigits (decide (i < 0)) i.natAbs
  unfold intText
  split
  · rename_i h
    exact .negative (decide_eq_true h) digits
  · rename_i h
    exact .num (decide_eq_false h) digits

/-- A double with the property is written as a numeral, and this stands for some double. -/
def Respelled (P : Float → Prop) (f : Float → Float) : Prop :=
  ∀ x, P x → ∃ t : Numeral, Derives (.value (.num t)) (floatText x) ∧ t.value? = some (.float (f x))

/-- There is nothing to be said where there are no doubles. -/
theorem respelled_none : Respelled (fun _ => False) id :=
  fun _ no => no.elim

mutual

/-- Where each double is written as a numeral that stands for some double, the grammar derives what
is written of a value from a term that stands for the value with those doubles. -/
theorem exists_derives_mapDoubles {P : Float → Prop} {f : Float → Float} {l : Layout} (hl : l.Blank)
    (hf : Respelled P f) (level : Nat) : (j : Json) → j.Doubles P →
      ∃ t, Derives (.value t) (j.laidOut l level) ∧ t.value? = some (j.mapDoubles f)
  | .null, _ => ⟨.null, .nullWord, rfl⟩
  | .bool true, _ => ⟨.bool true, .trueWord, rfl⟩
  | .bool false, _ => ⟨.bool false, .falseWord, rfl⟩
  | .num (.whole i fits), _ => by
    refine ⟨.num (wholeNumeral i), derives_intText i, ?_⟩
    rw [Term.value?, value?_wholeNumeral fits]
    rfl
  | .num (.float x), hx => by
    obtain ⟨t, ht, hvalue⟩ := hf x hx
    refine ⟨.num t, ht, ?_⟩
    rw [Term.value?, hvalue]
    rfl
  | .str s, _ => by
    refine ⟨.str (s.toList.map pieceOf), .str (quoted_escaped s.toList), ?_⟩
    rw [Term.value?, join_map_pieceOf, Option.map_some, String.ofList_toList]
    rfl
  | .arr [], _ => ⟨.arr [], .noItems blanks_nil, rfl⟩
  | .arr (j :: rest), hd => by
    obtain ⟨t, ht, hj⟩ := exists_derives_mapDoubles hl hf (level + 1) j hd.1
    obtain ⟨ts, hts, hjs⟩ := exists_derives_mapDoublesItems hl hf level rest hd.2
    refine ⟨.arr (t :: ts), ?_, ?_⟩
    · have array := Derives.arr (.items (hl.newLine (level + 1)) ht hts)
      rw [Json.laidOut]
      simpa only [List.cons_append, List.append_assoc] using array
    · rw [Term.value?, Term.values?, hj, hjs]
      rfl
  | .obj [], _ => ⟨.obj [], .noMembers blanks_nil, rfl⟩
  | .obj ((name, j) :: rest), hd => by
    obtain ⟨t, ht, hj⟩ := exists_derives_mapDoubles hl hf (level + 1) j hd.1
    obtain ⟨ms, hms, hjs⟩ := exists_derives_mapDoublesMembers hl hf level rest hd.2
    refine ⟨.obj ((name.toList.map pieceOf, t) :: ms), ?_, ?_⟩
    · have object := Derives.obj (.members (hl.newLine (level + 1)) (quoted_escaped name.toList)
        blanks_nil hl.gap ht hms)
      rw [Json.laidOut]
      unfold quoteText
      simpa only [List.cons_append, List.append_assoc, List.nil_append] using object
    · rw [Term.value?, Term.memberValues?, join_map_pieceOf, hj, hjs]
      simp only [Option.map_some, String.ofList_toList]
      rfl

/-- The grammar derives what is written of the items after another one. -/
theorem exists_derives_mapDoublesItems {P : Float → Prop} {f : Float → Float} {l : Layout}
    (hl : l.Blank) (hf : Respelled P f) (level : Nat) : (items : List Json) →
      Json.DoublesItems P items → ∃ ts, Derives (.moreItems ts) (Json.laidOutItems l level items) ∧
        Term.values? ts = some (Json.mapDoublesItems f items)
  | [], _ => ⟨[], .lastItem (hl.newLine level), rfl⟩
  | j :: rest, hd => by
    obtain ⟨t, ht, hj⟩ := exists_derives_mapDoubles hl hf (level + 1) j hd.1
    obtain ⟨ts, hts, hjs⟩ := exists_derives_mapDoublesItems hl hf level rest hd.2
    refine ⟨t :: ts, ?_, ?_⟩
    · have more := Derives.nextItem blanks_nil (.items (hl.newLine (level + 1)) ht hts)
      rw [Json.laidOutItems]
      simpa only [List.cons_append, List.append_assoc, List.nil_append] using more
    · rw [Term.values?, hj, hjs]
      rfl

/-- The grammar derives what is written of the members after another one. -/
theorem exists_derives_mapDoublesMembers {P : Float → Prop} {f : Float → Float} {l : Layout}
    (hl : l.Blank) (hf : Respelled P f) (level : Nat) : (members : List (String × Json)) →
      Json.DoublesMembers P members →
        ∃ ms, Derives (.moreMembers ms) (Json.laidOutMembers l level members) ∧
          Term.memberValues? ms = some (Json.mapDoublesMembers f members)
  | [], _ => ⟨[], .lastMember (hl.newLine level), rfl⟩
  | (name, j) :: rest, hd => by
    obtain ⟨t, ht, hj⟩ := exists_derives_mapDoubles hl hf (level + 1) j hd.1
    obtain ⟨ms, hms, hjs⟩ := exists_derives_mapDoublesMembers hl hf level rest hd.2
    refine ⟨(name.toList.map pieceOf, t) :: ms, ?_, ?_⟩
    · have more := Derives.nextMember blanks_nil
        (.members (hl.newLine (level + 1)) (quoted_escaped name.toList) blanks_nil hl.gap ht hms)
      rw [Json.laidOutMembers]
      unfold quoteText
      simpa only [List.cons_append, List.append_assoc, List.nil_append] using more
    · rw [Term.memberValues?, join_map_pieceOf, hj, hjs]
      simp only [String.ofList_toList]
      rfl

end

/-- The grammar derives what is written of a value without doubles from a term that stands for the
value. -/
theorem exists_derives_laidOut {l : Layout} (hl : l.Blank) (level : Nat) (j : Json)
    (hf : j.NoFloat) : ∃ t, Derives (.value t) (j.laidOut l level) ∧ t.value? = some j := by
  obtain ⟨t, ht, hj⟩ := exists_derives_mapDoubles hl respelled_none level j (hf.doubles _)
  rw [Json.mapDoubles_id] at hj
  exact ⟨t, ht, hj⟩

end Reading

/-- A text that stands for a value is read as the tree of the value. -/
theorem Json.readText_of_value? {t : Reading.Term} {s : List Char} {j : Json}
    (h : Reading.Writes t s) (hj : t.value? = some j) (hd : j.depth ≤ 127) :
    Json.readText s = (.ofText j, true) := by
  rw [readText_of_writes h, Reading.node_of_value? 0 t j hj (by omega)]

/-- Where each double is written as a numeral that stands for some double, a value that is not
nested too deeply is read back with those doubles, in every layout of blanks. -/
theorem Json.readText_respelled {P : Float → Prop} {f : Float → Float} {l : Layout} (hl : l.Blank)
    (hf : Reading.Respelled P f) (level : Nat) {j : Json} (hj : j.Doubles P) (hd : j.depth ≤ 127) :
    Json.readText (j.laidOut l level) = (.ofText (j.mapDoubles f), true) := by
  obtain ⟨t, ht, hvalue⟩ := Reading.exists_derives_mapDoubles hl hf level j hj
  have writes : Reading.Writes t (j.laidOut l level) :=
    ⟨[], _, [], Reading.blanks_nil, ht, Reading.blanks_nil, by simp⟩
  exact readText_of_value? writes hvalue (by rw [depth_mapDoubles]; exact hd)

/-- A value without doubles that is not nested too deeply is read back from its text, in every
layout of blanks. -/
theorem Json.readText_laidOut {l : Layout} (hl : l.Blank) (level : Nat) {j : Json}
    (hf : j.NoFloat) (hd : j.depth ≤ 127) :
    Json.readText (j.laidOut l level) = (.ofText j, true) := by
  rw [Json.readText_respelled hl Reading.respelled_none level (hf.doubles _) hd, mapDoubles_id]

/-- Compact texts are read back. -/
theorem Json.readText_compactChars {j : Json} (hf : j.NoFloat) (hd : j.depth ≤ 127) :
    Json.readText j.compactChars = (.ofText j, true) := by
  rw [Json.compactChars_eq 0]
  exact Json.readText_laidOut Layout.blank_compact 0 hf hd

/-- Pretty texts are read back. -/
theorem Json.readText_prettyChars {j : Json} (hf : j.NoFloat) (hd : j.depth ≤ 127) :
    Json.readText (j.prettyChars 0) = (.ofText j, true) := by
  rw [Json.prettyChars_eq 0]
  exact Json.readText_laidOut Layout.blank_pretty 0 hf hd

end TestChain
