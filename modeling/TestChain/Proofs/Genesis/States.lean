import TestChain.Proofs.Codec.Documents
import TestChain.Proofs.Codec.States

/-!
# States in documents

A state that is put into a document by its type comes back by its type, and nothing else changes
(`GenesisDocument.Holds`). That the type's codec is faithful to the state is all that it takes
(`GenesisDocument.holds_insert`), and the codecs of the modules' states are faithful to all of them.
-/

namespace TestChain.GenesisDocument

/-- The document `e` is `d` with a state of a module: a module that was there keeps its place, and a
new one comes last. -/
structure Holds {α : Type} (d : GenesisDocument) (name : String) (c : Codec α) (a : α)
    (e : GenesisDocument) : Prop where
  /-- The state is found. -/
  get : e.get name c = .ok a
  /-- No other state stands for it. -/
  getD : ∀ b, e.getD name c b = .ok a
  /-- Other modules keep their states. -/
  others : ∀ other, other ≠ name → e.getRaw? other = d.getRaw? other
  /-- A module that was there keeps its place. -/
  kept : name ∈ d.names → e.names = d.names
  /-- A new module comes last. -/
  appended : name ∉ d.names → e.names = d.names ++ [name]

/-- A document holds a state that was put into it. -/
theorem holds_insert {α : Type} {c : Codec α} {depth : Nat} {a : α} (h : c.Faithful depth a)
    (d : GenesisDocument) (name : String) : d.Holds name c a (d.insert name c a) where
  get := get_insert h d name
  getD := getD_of_get (get_insert h d name)
  others other hne := (getRaw?_insertRaw d name other _).trans (if_neg hne)
  kept hmem := Members.names_put_of_mem _ hmem
  appended hmem := by
    show Members.names (Members.put name (c.toJson a) d.modules) = d.names ++ [name]
    rw [Members.put_of_not_mem _ hmem]
    exact List.map_append

/-- The states of all modules survive in every document and under every name. -/
theorem states_survive (d : GenesisDocument) (name : String) :
    (∀ s, d.Holds name AuthState.codec s (d.insert name AuthState.codec s)) ∧
    (∀ s, d.Holds name BankState.codec s (d.insert name BankState.codec s)) ∧
    (∀ s, d.Holds name StakingState.codec s (d.insert name StakingState.codec s)) ∧
    (∀ s, d.Holds name SlashingState.codec s (d.insert name SlashingState.codec s)) ∧
    (∀ s, d.Holds name MintState.codec s (d.insert name MintState.codec s)) ∧
    (∀ s, d.Holds name DistributionState.codec s (d.insert name DistributionState.codec s)) ∧
    (∀ s, d.Holds name WasmState.codec s (d.insert name WasmState.codec s)) ∧
    (∀ s, d.Holds name RewardsState.codec s (d.insert name RewardsState.codec s)) := by
  refine ⟨fun s => ?_, fun s => ?_, fun s => ?_, fun s => ?_, fun s => ?_, fun s => ?_, fun s => ?_,
    fun s => ?_⟩
  · exact holds_insert (AuthState.faithful_codec s) d name
  · exact holds_insert (BankState.faithful_codec s) d name
  · exact holds_insert (StakingState.faithful_codec s) d name
  · exact holds_insert (SlashingState.faithful_codec s) d name
  · exact holds_insert (MintState.faithful_codec s) d name
  · exact holds_insert (DistributionState.faithful_codec s) d name
  · exact holds_insert (WasmState.faithful_codec s) d name
  · exact holds_insert (RewardsState.faithful_codec s) d name

end TestChain.GenesisDocument
