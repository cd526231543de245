/-!
# Named members

A list of named members stands for a finite map from names. `put` keeps the order in which names
were first put, `putSorted` keeps names in increasing order; both replace a member of the same name,
so no name comes twice (`nodup_put`).
-/

namespace TestChain

/-- Named members, in order. -/
abbrev Members (α : Type) := List (String × α)

namespace Members

variable {α : Type}

/-- The names of the members, in order. -/
def names (ms : Members α) : List String :=
  ms.map Prod.fst

/-- Puts a member at the end, or in place of the one of that name. -/
def put (name : String) (a : α) : Members α → Members α
  | [] => [(name, a)]
  | (n, b) :: rest => if n = name then (n, a) :: rest else (n, b) :: put name a rest

/-- Puts a member into members in increasing order of their names. -/
def putSorted (name : String) (a : α) : Members α → Members α
  | [] => [(name, a)]
  | (n, b) :: rest =>
    if name < n then (name, a) :: (n, b) :: rest
    else if name = n then (name, a) :: rest
    else (n, b) :: putSorted name a rest

/-- The members in increasing order of their names; of several with one name the last. -/
def sorted (ms : Members α) : Members α :=
  ms.foldl (fun done m => putSorted m.1 m.2 done) []

/-- The members without those of a name. -/
def erase (name : String) (ms : Members α) : Members α :=
  ms.filter fun m => m.1 ≠ name

/-- Putting a member adds no name but its own. -/
theorem mem_names_put {name n : String} {a : α} {ms : Members α} :
    n ∈ names (put name a ms) ↔ n = name ∨ n ∈ names ms := by
  induction ms with
  | nil => simp [put, names]
  | cons m rest ih =>
    obtain ⟨k, b⟩ := m
    simp only [names] at ih
    by_cases h : k = name
    · subst h; simp [put, names]
    · simp only [put, h, if_false, names, List.map_cons, List.mem_cons, ih]
      exact or_left_comm

/-- Putting a member keeps the names distinct. -/
theorem nodup_put {name : String} {a : α} {ms : Members α} (h : (names ms).Nodup) :
    (names (put name a ms)).Nodup := by
  induction ms with
  | nil => simp [put, names]
  | cons m rest ih =>
    obtain ⟨k, b⟩ := m
    simp only [names, List.map_cons, List.nodup_cons] at h
    by_cases hk : k = name
    · subst hk; simpa [put, names] using h
    · have hrest := ih (by simpa [names] using h.2)
      have hmem := @mem_names_put α name k a rest
      simp only [names] at hmem hrest
      simp only [put, hk, if_false, names, List.map_cons, List.nodup_cons]
      exact ⟨fun hin => (hmem.1 hin).elim hk h.1, hrest⟩

/-- Removing members keeps the names distinct. -/
theorem nodup_erase {name : String} {ms : Members α} (h : (names ms).Nodup) :
    (names (erase name ms)).Nodup :=
  h.sublist (List.Sublist.map _ List.filter_sublist)

end Members

end TestChain
