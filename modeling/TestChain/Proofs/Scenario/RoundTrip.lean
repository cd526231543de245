import TestChain.Proofs.Codec.Restored
import TestChain.Proofs.Codec.Values
import TestChain.Proofs.Genesis.Text
import TestChain.Proofs.Json.Depth
import TestChain.Proofs.Scenario.Steps
import TestChain.Scenario.Basic

/-!
# Scenarios are read back

A bound of a balance that a step leaves out is written as the absent value and refused when it is
read. Everything else comes back: what is written of a scenario is read as the scenario exactly if
no step leaves out a bound and, in a text, no override of a module's state is nested too deeply
(`Scenario.comes_back_iff`). Free values have their members in the order of their names, so a
scenario that goes through one has its overrides in this order (`Scenario.reorder`); they are the
same members.
-/

namespace TestChain

open Codec Fields
open Json (Trees)
open Reading (Term)

variable {t : Trees} {d : Nat}

/-! ## Single values -/

/-- Profiles are decoded. -/
theorem ParamProfile.faithful_codec (p : ParamProfile) : ParamProfile.codec.Faithful d p :=
  faithful_enumeration (by cases p <;> rfl)

/-- Modes are decoded. -/
theorem GasMode.faithful_codec (m : GasMode) : GasMode.codec.Faithful d m :=
  faithful_enumeration (by cases m <;> rfl)

/-- Selections are decoded, with an operator or without. -/
theorem ProposerSelection.faithful_codec (s : ProposerSelection) :
    ProposerSelection.codec.Faithful 1 s := by
  have named {name : String} (h : ofName? name = some s)
      (hname : ProposerSelection.codec.encode s = .str name) :
      ProposerSelection.codec.Faithful 1 s := by
    refine ⟨hname ▸ Json.tidy_str 1 name, fun n hn => ?_⟩
    rw [hname, Json.SpelledBy] at hn
    rw [hn]
    show caseOf ofName? name = _
    rw [caseOf, h]
  cases s with
  | none => exact named rfl rfl
  | firstValidator => exact named rfl rfl
  | roundRobin => exact named rfl rfl
  | fixed operator =>
    have written : ProposerSelection.codec.encode (.fixed operator) =
        .obj [("fixed", .str operator.text)] := rfl
    refine ⟨?_, fun n hn => ?_⟩
    · rw [written]
      exact Json.tidy_obj (List.pairwise_singleton _ _)
        (List.forall_mem_singleton.2 (Json.tidy_str 0 _))
    · rw [written] at hn
      obtain ⟨ns, o, rfl, ho, others, hperm, hns⟩ := Json.spelledBy_obj_iff.1 hn
      obtain rfl := List.perm_singleton.1 hperm
      obtain ⟨⟨key, part⟩, rest, ⟨hkey, hpart⟩, hrest, rfl⟩ := List.forall₂_cons_left_iff.1 hns
      obtain rfl : key = .str "fixed" := hkey
      obtain rfl := List.forall₂_nil_left_iff.1 hrest
      have decoded : (Address.codec .validator).decode part = pure operator :=
        (operator.faithful_codec (d := 0)).decode part hpart
      have select : ofPart "fixed" part = pure (.fixed operator) := by
        rw [ofPart, if_pos rfl, decoded, map_pure]
      have name : (Node.str "fixed").text = pure "fixed" := rfl
      show decode (.map [(.str "fixed", part)] o) = _
      have reached : (Node.map [(.str "fixed", part)] o).reached =
        pure (.map [(.str "fixed", part)] o) := rfl
      unfold decode
      rw [reached, pure_bind]
      dsimp only
      rw [if_neg (by rcases ho with rfl | rfl <;> decide), name, pure_bind, select, pure_bind,
        ho.close, pure_bind, List.isEmpty_nil, if_pos rfl]

/-- Named accounts are decoded. -/
theorem NamedAccount.faithful_codec (a : NamedAccount) : NamedAccount.codec.Faithful 1 a :=
  faithful_record <| .map (.and (faithful_required (faithful_string _))
    (faithful_required (faithful_amountCodec _)) (by decide)) rfl

/-! ## Configurations -/

/-- The configuration with its overrides in another order. -/
def GenesisConfig.reorder (order : Members Json → Members Json) (c : GenesisConfig) :
    GenesisConfig :=
  { c with moduleOverrides := order c.moduleOverrides }

/-- The configuration with the overrides of the genesis in another order. -/
def HarnessConfig.reorder (order : Members Json → Members Json) (c : HarnessConfig) :
    HarnessConfig :=
  { c with genesis := c.genesis.reorder order }

/-- The scenario with the overrides of its configuration in another order. -/
def Scenario.reorder (order : Members Json → Members Json) (s : Scenario) : Scenario :=
  { s with config := s.config.reorder order }

/-- The overrides have different names, and they are free values without doubles. -/
structure GenesisConfig.Free (c : GenesisConfig) : Prop where
  /-- No module is named twice. -/
  nodup : c.moduleOverrides.names.Nodup
  /-- The states keep their members in the order of their names. -/
  sorted : ∀ m ∈ c.moduleOverrides, m.2.sorted = m.2
  /-- There are no doubles. -/
  noFloat : ∀ m ∈ c.moduleOverrides, m.2.NoFloat

/-- The overrides have at most `d` containers nested in one another. -/
def GenesisConfig.Shallow (d : Nat) (c : GenesisConfig) : Prop :=
  ∀ m ∈ c.moduleOverrides, m.2.depth ≤ d

/-- Configurations come back with their overrides in the order of the tree. -/
theorem GenesisConfig.restores_codec {c : GenesisConfig} (h : c.Free)
    (hdepth : c.Shallow (d + 3)) :
    GenesisConfig.codec.Restores t (d + 5) c (c.reorder t.order) := by
  have tidy : ∀ m ∈ c.moduleOverrides, m.2.Tidy (d + 3) := fun m hm =>
    ⟨h.noFloat m hm, h.sorted m hm ▸ Json.distinct_sorted m.2, hdepth m hm⟩
  have balances : (Codec.list Balance.codec).Faithful (d + 4) c.extraBalances :=
    .mono (.list fun b _ => b.faithful_codec) (by omega)
  exact restores_record <| .map (.and (restores_single (faithful_string _).restores)
    (.and (restores_single (faithful_uint64 _).restores)
    (.and (restores_single (faithful_uint64 _).restores)
    (.and (restores_single c.paramProfile.faithful_codec.restores)
    (.and (restores_single balances.restores)
      (restores_single (restores_dictionary h.nodup tidy h.sorted)) (by decide)) (by decide))
      (by decide)) (by decide)) (by decide)) rfl

/-- Configurations of harnesses come back with the overrides in the order of the tree. -/
theorem HarnessConfig.restores_codec {c : HarnessConfig} (h : c.genesis.Free)
    (hdepth : c.genesis.Shallow (d + 3)) :
    HarnessConfig.codec.Restores t (d + 6) c (c.reorder t.order) := by
  have genesis := GenesisConfig.restores_codec (t := t) h hdepth
  have proposer : ProposerSelection.codec.Faithful (d + 5) c.proposer :=
    c.proposer.faithful_codec.mono (by omega)
  exact restores_record <| .map (.and (restores_single (faithful_string _).restores)
    (.and (restores_single (faithful_optionalText _).restores)
    (.and (restores_single genesis)
    (.and (restores_single c.gasMode.faithful_codec.restores)
    (.and (restores_single (faithful_bool _).restores)
    (.and (restores_single (faithful_optionalNumber _).restores)
    (.and (restores_single proposer.restores)
    (.and (restores_single (faithful_uint64 _).restores)
    (.and (restores_single (faithful_uint64 _).restores)
      (restores_single (faithful_optionalNumber _).restores) (by decide)) (by decide)) (by decide))
      (by decide)) (by decide)) (by decide)) (by decide)) (by decide)) (by decide)) rfl

namespace Scenario

/-- No step leaves out a bound of a balance. -/
def IsComplete (s : Scenario) : Prop :=
  ∀ x ∈ s.steps, x.IsComplete

variable {s : Scenario}

/-- Scenarios whose steps leave out no bound come back with the overrides in the order of the tree.
-/
theorem restores_codec (h : s.config.genesis.Free) (hdepth : s.config.genesis.Shallow (d + 3))
    (complete : s.IsComplete) : codec.Restores t (d + 7) s (s.reorder t.order) := by
  have config := HarnessConfig.restores_codec (t := t) h hdepth
  have accounts : NamedAccount.codec.list.Faithful (d + 6) s.accounts :=
    .mono (.list fun a _ => a.faithful_codec) (by omega)
  have steps : Step.codec.list.Faithful (d + 6) s.steps :=
    .mono (.list fun x hx => Step.faithful_codec (complete x hx)) (by omega)
  exact restores_record <| .map (.and (restores_single (faithful_string _).restores)
    (.and (restores_single (faithful_optionalText _).restores)
    (.and (restores_single config)
    (.and (restores_single accounts.restores)
      (restores_single steps.restores) (by decide)) (by decide)) (by decide)) (by decide)) rfl

/-- The members of a written scenario. -/
def members (s : Scenario) : Members Json :=
  [("name", .str s.name), ("description", Codec.string.option.encode s.description),
    ("harness", HarnessConfig.codec.encode s.config),
    ("accounts", NamedAccount.codec.list.encode s.accounts),
    ("steps", Step.codec.list.encode s.steps)]

/-- A scenario is written as its members. -/
theorem encode_eq (s : Scenario) : codec.encode s = .obj s.members := rfl

/-- No member is written twice. -/
theorem nodup_members (s : Scenario) : s.members.names.Nodup := by
  show ["name", "description", "harness", "accounts", "steps"].Nodup
  decide

/-- Scenarios are written tidily, also if steps leave out bounds. -/
theorem tidy_codec (h : s.config.genesis.Free) (hdepth : s.config.genesis.Shallow (d + 3)) :
    (codec.encode s).Tidy (d + 7) := by
  have config := (HarnessConfig.restores_codec (t := .ofText) h hdepth).tidy
  have accounts : NamedAccount.codec.list.Faithful 2 s.accounts :=
    .list fun a _ => a.faithful_codec
  have steps : (Step.codec.list.encode s.steps).Tidy 3 := Json.tidy_arr fun j hj => by
    obtain ⟨x, -, rfl⟩ := List.mem_map.1 hj
    exact x.tidy_codec
  rw [encode_eq]
  refine Json.tidy_obj s.nodup_members ?_
  simp only [members, List.forall_mem_cons]
  exact ⟨Json.tidy_str _ _, (faithful_optionalText _).tidy, config, accounts.tidy.mono (by omega),
    steps.mono (by omega), List.forall_mem_nil _⟩

/-- A scenario is refused if one of its steps leaves out a bound. -/
theorem refused_of_not_complete (t : Trees) (h : ¬s.IsComplete) :
    (codec.decode (t.tree (codec.encode s))).Refused := by
  obtain ⟨x, hx⟩ := not_forall.1 h
  obtain ⟨hmem, hx⟩ := Classical.not_imp.1 hx
  have step : (Step.codec.decode (t.tree (Step.codec.encode x))).Refused :=
    Step.refused hx (t.spelled _ x.tidy_codec.distinct)
  have steps := refused_list_tree hmem step
  have written : ("steps", Step.codec.list.encode s.steps) ∈ s.members := by simp [members]
  exact refused_record_tree s.nodup_members written (.map (.right (.right (.right (.right
    (refuses_single steps) (by decide)) (by decide)) (by decide)) (by decide)) _ _)

end Scenario

/-! ## Deep overrides -/

/-- A configuration is refused in a text if an override of it is nested too deeply. -/
theorem GenesisConfig.refused_node {c : GenesisConfig} (h : ¬c.Shallow 123) {u : Term}
    (hu : u.value? = some (codec.encode c)) : (codec.decode (u.node 2)).Refused := by
  obtain ⟨m, hm⟩ := not_forall.1 h
  obtain ⟨hmem, hdeep⟩ := Classical.not_imp.1 hm
  refine refused_record_node (by decide) hu
    (List.Mem.tail _ (.tail _ (.tail _ (.tail _ (.tail _ (.head _)))))) fun v hv => .map ?_ _ _
  have overrides : ((Codec.dictionary .json).decode (v.node 3)).Refused :=
    refused_dictionary_node (by decide) hv hmem (by omega)
  exact .right (.right (.right (.right (.right (refuses_single overrides) (by decide)) (by decide))
    (by decide)) (by decide)) (by decide)

/-- A configuration of a harness is refused in a text if an override is nested too deeply. -/
theorem HarnessConfig.refused_node {c : HarnessConfig} (h : ¬c.genesis.Shallow 123) {u : Term}
    (hu : u.value? = some (codec.encode c)) : (codec.decode (u.node 1)).Refused := by
  refine refused_record_node (by decide) hu (List.Mem.tail _ (.tail _ (.head _)))
    fun v hv => .map ?_ _ _
  have genesis := GenesisConfig.refused_node h hv
  exact .right (.right (.left (refuses_single genesis) _) (by decide)) (by decide)

/-- A scenario is refused in a text if an override is nested too deeply. -/
theorem Scenario.refused_node {s : Scenario} (h : ¬s.config.genesis.Shallow 123) {u : Term}
    (hu : u.value? = some (codec.encode s)) : (codec.decode (u.node 0)).Refused := by
  refine refused_record_node (by decide) hu (List.Mem.tail _ (.tail _ (.head _)))
    fun v hv => .map ?_ _ _
  have config := HarnessConfig.refused_node h hv
  exact .right (.right (.left (refuses_single config) _) (by decide)) (by decide)

/-! ## Scenarios -/

/-- No member's value is nested more deeply than the members are. -/
theorem Json.depth_le_depthMembers {members : Members Json} {m : String × Json}
    (h : m ∈ members) : m.2.depth ≤ depthMembers members := by
  induction members with
  | nil => cases h
  | cons first rest ih =>
    obtain ⟨name, j⟩ := first
    rw [depthMembers]
    rcases List.mem_cons.1 h with rfl | h
    · exact Nat.le_max_left _ _
    · exact Nat.le_trans (ih h) (Nat.le_max_right _ _)

namespace Scenario

/-- A scenario whose overrides are free values without doubles comes back from its text exactly if
no step leaves out a bound of a balance and no override has more than 123 containers nested in one
another, and from its free value exactly if no step leaves out a bound; the overrides are then in
the order of their names. A single step comes back from both exactly if it leaves out no bound.
Whatever does not come back as it was is refused. -/
theorem comes_back_iff (s : Scenario) (h : s.config.genesis.Free) :
    (∀ r, codec.ofText (codec.text s) = .ok r ↔
      r = s ∧ s.IsComplete ∧ s.config.genesis.Shallow 123) ∧
    (∀ r, codec.ofJson (codec.toJson s) = .ok r ↔ r = s.reorder Members.sorted ∧ s.IsComplete) ∧
    (Members.sorted s.config.genesis.moduleOverrides).Perm s.config.genesis.moduleOverrides ∧
    ∀ x r : Step, (Step.codec.ofText (Step.codec.text x) = .ok r ↔ r = x ∧ x.IsComplete) ∧
      (Step.codec.ofJson (Step.codec.toJson x) = .ok r ↔ r = x ∧ x.IsComplete) := by
  have limited : ∃ d, s.config.genesis.Shallow (d + 3) :=
    ⟨_, fun _ hm => Nat.le_trans (Json.depth_le_depthMembers hm) (Nat.le_add_right _ 3)⟩
  obtain ⟨d, hd⟩ := limited
  refine ⟨fun r => ?_, fun r => ?_, Members.perm_sorted h.nodup, Step.reads_back_iff⟩
  · by_cases shallow : s.config.genesis.Shallow 123
    · have tidy : (codec.encode s).Tidy 127 := tidy_codec (d := 120) h shallow
      rw [and_iff_left shallow]
      exact ofText_text_iff tidy (restores_codec h hd) (refused_of_not_complete .ofText)
    · obtain ⟨u, hu, hread⟩ := Json.exists_readText_compactChars (tidy_codec h hd).noFloat
      have chars : (codec.text s).toList = (codec.encode s).compactChars := String.toList_ofList
      have refused : (codec.decode (Json.readText (codec.text s).toList).1).Refused := by
        rw [chars, hread]
        exact refused_node shallow hu
      obtain ⟨e, he⟩ := exists_error_ofChars refused
      unfold Codec.ofText
      rw [he]
      exact iff_of_false (fun h => (nomatch h)) fun hr => shallow hr.2.2
  · exact ofJson_toJson_iff (restores_codec h hd) (refused_of_not_complete .ofValue)

/-- A scenario with two overrides and a balance between bounds comes back. -/
theorem exists_comes_back :
    let overrides : Members Json := [("bank", .arr [.nat 1, .null]), ("auth", .obj [])]
    let steps : List Step := [.endBlock none, .assertBalance ⟨"a", none, some 1, some 1, some 2⟩]
    let s : Scenario := ⟨"s", none, { HarnessConfig.fresh with
      genesis := { GenesisConfig.fresh with moduleOverrides := overrides } }, [], steps⟩
    s.config.genesis.Free ∧ codec.ofText (codec.text s) = .ok s ∧
      codec.ofJson (codec.toJson s) = .ok (s.reorder Members.sorted) := by
  intro overrides steps s
  have free : s.config.genesis.Free := by
    refine ⟨by decide, ?_, ?_⟩
    · exact List.forall_mem_cons.2 ⟨rfl, List.forall_mem_singleton.2 rfl⟩
    · exact List.forall_mem_cons.2 ⟨⟨trivial, trivial, trivial⟩,
        List.forall_mem_singleton.2 trivial⟩
  have complete : s.IsComplete :=
    List.forall_mem_cons.2 ⟨trivial, List.forall_mem_singleton.2 ⟨rfl, rfl, rfl⟩⟩
  have shallow : s.config.genesis.Shallow 123 :=
    List.forall_mem_cons.2 ⟨by decide, List.forall_mem_singleton.2 (by decide)⟩
  obtain ⟨text, value, -, -⟩ := comes_back_iff s free
  exact ⟨free, (text s).2 ⟨rfl, complete, shallow⟩, (value _).2 ⟨rfl, complete⟩⟩

/-- A step that states no more than that a balance is one is written, and its text is refused, and
its free value too. -/
theorem exists_lost_step :
    let x : Step := .assertBalance ⟨"a", none, some 1, none, none⟩
    Step.codec.encode x = .obj [("action", .str "assert_balance"), ("account", .str "a"),
        ("denom", .null), ("eq", .nat 1), ("gte", .null), ("lte", .null)] ∧
      (¬∃ r, Step.codec.ofText (Step.codec.text x) = .ok r) ∧
      ¬∃ r, Step.codec.ofJson (Step.codec.toJson x) = .ok r := by
  intro x
  have incomplete : ¬x.IsComplete := fun h => (nomatch h.2.1)
  refine ⟨rfl, ?_, ?_⟩
  · exact fun ⟨r, hr⟩ => incomplete ((Step.reads_back_iff x r).1.1 hr).2
  · exact fun ⟨r, hr⟩ => incomplete ((Step.reads_back_iff x r).2.1 hr).2

end Scenario

end TestChain
