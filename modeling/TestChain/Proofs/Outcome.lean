/-!
# Outcomes of calls

A call that changes a state ends with a result or an error, and in both cases in a state. The
outcome of a sequence of calls is taken apart into those of its parts (`bind_ok_iff`,
`bind_error_iff`), and `Ends` says where a call may end from some states: it composes along
sequences (`Ends.bind`) and lists (`Ends.forM`).
-/

namespace TestChain

variable {ε σ α β : Type}

/-- The state in which a call ends, with a result or with an error. -/
def stateAfter (x : EStateM ε σ α) (s : σ) : σ :=
  match x s with
  | .ok _ s' => s'
  | .error _ s' => s'

/-- A call that succeeds ends in the state of its result. -/
theorem stateAfter_of_ok {x : EStateM ε σ α} {s s' : σ} {a : α} (h : x s = .ok a s') :
    stateAfter x s = s' := by
  unfold stateAfter
  rw [h]

/-- A call that fails ends in the state of its error. -/
theorem stateAfter_of_error {x : EStateM ε σ α} {s s' : σ} {e : ε} (h : x s = .error e s') :
    stateAfter x s = s' := by
  unfold stateAfter
  rw [h]

/-- What holds after success and after failure holds after a call. -/
theorem stateAfter_cases {P : σ → Prop} {x : EStateM ε σ α} {s : σ}
    (hok : ∀ a s', x s = .ok a s' → P s') (herror : ∀ e s', x s = .error e s' → P s') :
    P (stateAfter x s) := by
  cases hx : x s with
  | ok a s' =>
    rw [stateAfter_of_ok hx]
    exact hok a s' hx
  | error e s' =>
    rw [stateAfter_of_error hx]
    exact herror e s' hx

/-- A sequence of two calls is the first, then the second from where the first ended. -/
theorem bind_eq (x : EStateM ε σ α) (f : α → EStateM ε σ β) (s : σ) :
    (x >>= f) s =
      match x s with
      | .ok a s' => f a s'
      | .error e s' => .error e s' := rfl

/-- After a call that succeeds comes the second. -/
theorem bind_of_ok {x : EStateM ε σ α} {s s' : σ} {a : α} (h : x s = .ok a s')
    (f : α → EStateM ε σ β) : (x >>= f) s = f a s' := by
  rw [bind_eq, h]

/-- After a call that fails comes nothing. -/
theorem bind_of_error {x : EStateM ε σ α} {s s' : σ} {e : ε} (h : x s = .error e s')
    (f : α → EStateM ε σ β) : (x >>= f) s = .error e s' := by
  rw [bind_eq, h]

/-- After a call that succeeds, a sequence ends where the second call does. -/
theorem stateAfter_bind_of_ok {x : EStateM ε σ α} {s s' : σ} {a : α} (h : x s = .ok a s')
    {f : α → EStateM ε σ β} : stateAfter (x >>= f) s = stateAfter (f a) s' := by
  unfold stateAfter
  rw [bind_of_ok h]

/-- Reading the state gives it to what comes next. -/
@[simp]
theorem get_bind_eq (f : σ → EStateM ε σ β) (s : σ) : (get >>= f) s = f s s := rfl

/-- Nothing comes after a refusal. -/
theorem throw_bind_eq (e : ε) (f : α → EStateM ε σ β) (s : σ) :
    ((throw e : EStateM ε σ α) >>= f) s = .error e s := rfl

/-- A change of the state is seen by what comes next. -/
@[simp]
theorem modify_bind_eq (g : σ → σ) (f : PUnit → EStateM ε σ β) (s : σ) :
    (modify g >>= f) s = f ⟨⟩ (g s) := rfl

/-- A new state is seen by what comes next. -/
@[simp]
theorem set_bind_eq (t : σ) (f : PUnit → EStateM ε σ β) (s : σ) :
    (set t >>= f) s = f ⟨⟩ t := rfl

/-- Doing nothing ends where it began. -/
@[simp]
theorem pure_eq (a : α) (s : σ) : (pure a : EStateM ε σ α) s = .ok a s := rfl

/-- A refusal ends where it began. -/
theorem throw_eq (e : ε) (s : σ) : (throw e : EStateM ε σ α) s = .error e s := rfl

/-- A new state takes the place of the old one. -/
theorem set_eq (t s : σ) : (set t : EStateM ε σ PUnit) s = .ok ⟨⟩ t := rfl

/-- A change of the state ends in the changed state. -/
@[simp]
theorem modify_eq (g : σ → σ) (s : σ) : (modify g : EStateM ε σ PUnit) s = .ok ⟨⟩ (g s) := rfl

/-- A sequence of calls succeeds exactly if both do. -/
theorem bind_ok_iff {x : EStateM ε σ α} {f : α → EStateM ε σ β} {s s'' : σ} {b : β} :
    (x >>= f) s = .ok b s'' ↔ ∃ a s', x s = .ok a s' ∧ f a s' = .ok b s'' := by
  rw [bind_eq]
  cases hx : x s with
  | ok a s' => simp [and_assoc]
  | error e s' => simp

/-- A sequence of calls fails exactly if the first does, or the second after the first. -/
theorem bind_error_iff {x : EStateM ε σ α} {f : α → EStateM ε σ β} {s s'' : σ} {e : ε} :
    (x >>= f) s = .error e s'' ↔
      x s = .error e s'' ∨ ∃ a s', x s = .ok a s' ∧ f a s' = .error e s'' := by
  rw [bind_eq]
  cases hx : x s with
  | ok a s' => simp [and_assoc]
  | error e' s' => simp

/-- Of two steps that may be refused none is, exactly if neither is. -/
theorem except_bind_ok_iff {x : Except ε α} {f : α → Except ε β} {b : β} :
    (x >>= f) = .ok b ↔ ∃ a, x = .ok a ∧ f a = .ok b := by
  cases x with
  | ok a => simp [bind, Except.bind]
  | error e => simp [bind, Except.bind]

/-- After a step that is not refused comes the next. -/
theorem except_bind_of_ok {x : Except ε α} {a : α} (h : x = .ok a) (f : α → Except ε β) :
    (x >>= f) = f a := by
  rw [h]
  rfl

/-- Of a list of steps that may be refused none is, exactly if none of them is. -/
theorem except_forM_ok_iff {l : List α} {f : α → Except ε Unit} :
    l.forM f = .ok () ↔ ∀ a ∈ l, f a = .ok () := by
  induction l with
  | nil => exact ⟨fun _ _ h => (nomatch h), fun _ => rfl⟩
  | cons a rest ih =>
    show (f a >>= fun _ => rest.forM f) = .ok () ↔ _
    rw [except_bind_ok_iff, List.forall_mem_cons, ← ih]
    exact ⟨fun ⟨_, ha, hrest⟩ => ⟨ha, hrest⟩, fun ⟨ha, hrest⟩ => ⟨⟨⟩, ha, hrest⟩⟩

/-- A test refuses nothing exactly if what it tests is so. -/
theorem except_test_ok_iff {p : Prop} [Decidable p] {e : ε} :
    (if p then .ok () else .error e : Except ε Unit) = .ok () ↔ p := by
  split
  · rename_i h
    exact iff_of_true rfl h
  · rename_i h
    exact iff_of_false (fun hok => (nomatch hok)) h

/-- Another wording of refusals refuses nothing else. -/
theorem mapError_ok_iff {δ : Type} {x : Except ε α} {f : ε → δ} {a : α} :
    x.mapError f = .ok a ↔ x = .ok a := by
  cases x with
  | ok a' =>
    have same : (Except.ok a' : Except ε α).mapError f = .ok a' := rfl
    rw [same, Except.ok.injEq, Except.ok.injEq]
  | error e => exact iff_of_false (fun h => (nomatch h)) fun h => (nomatch h)

/-- Of two steps that may be refused one is, exactly if the first is, or the second after the
first. -/
theorem except_bind_error_iff {x : Except ε α} {f : α → Except ε β} {e : ε} :
    (x >>= f) = .error e ↔ x = .error e ∨ ∃ a, x = .ok a ∧ f a = .error e := by
  cases x with
  | ok a => simp [bind, Except.bind]
  | error e' => simp [bind, Except.bind]

/-- Tests of a list refuse exactly the first element that fails. -/
theorem except_forM_test_error_iff {p : α → Prop} [DecidablePred p] {f : α → ε} {l : List α}
    {e : ε} :
    (l.forM fun a => (if p a then .ok () else .error (f a) : Except ε Unit)) = .error e ↔
      ∃ a, l.find? (fun a => ¬p a) = some a ∧ f a = e := by
  induction l with
  | nil => exact ⟨fun h => (nomatch h), fun ⟨_, h, _⟩ => (nomatch h)⟩
  | cons a rest ih =>
    show ((if p a then .ok () else .error (f a) : Except ε Unit) >>= fun _ => _) = .error e ↔ _
    rw [List.find?_cons]
    by_cases ha : p a
    · simp only [ha, if_true, not_true_eq_false, decide_false]
      exact ih
    · simp only [ha, if_false, not_false_eq_true, decide_true, Option.some.injEq, exists_eq_left']
      exact ⟨Except.error.inj, congrArg Except.error⟩

/-- Another wording of refusals words each of them. -/
theorem mapError_error_iff {δ : Type} {x : Except ε α} {f : ε → δ} {e : δ} :
    x.mapError f = .error e ↔ ∃ e', x = .error e' ∧ f e' = e := by
  cases x with
  | ok a => exact ⟨fun h => (nomatch h), fun ⟨_, h, _⟩ => (nomatch h)⟩
  | error e' =>
    have same : (Except.error e' : Except ε α).mapError f = .error (f e') := rfl
    simp only [same, Except.error.injEq, exists_eq_left']

/-! ## Where a call may end -/

/-- From a state in `P` the call ends with a result in `Q` or with an error in `E`. -/
def Ends (P : σ → Prop) (x : EStateM ε σ α) (Q : α → σ → Prop) (E : ε → σ → Prop) : Prop :=
  ∀ s, P s →
    match x s with
    | .ok a s' => Q a s'
    | .error e s' => E e s'

namespace Ends

variable {P : σ → Prop} {x : EStateM ε σ α} {Q : α → σ → Prop} {E : ε → σ → Prop}

/-- A result lies where the call may end. -/
theorem of_ok (h : Ends P x Q E) {s s' : σ} {a : α} (hs : P s) (hx : x s = .ok a s') : Q a s' := by
  have := h s hs
  rw [hx] at this
  exact this

/-- An error lies where the call may end. -/
theorem of_error (h : Ends P x Q E) {s s' : σ} {e : ε} (hs : P s) (hx : x s = .error e s') :
    E e s' := by
  have := h s hs
  rw [hx] at this
  exact this

/-- Doing nothing ends where it began. -/
theorem pure {a : α} (h : ∀ s, P s → Q a s) : Ends P (Pure.pure a) Q E :=
  fun s hs => h s hs

/-- Refusing ends where it began. -/
theorem throw {e : ε} (h : ∀ s, P s → E e s) :
    Ends P (MonadExcept.throw e : EStateM ε σ α) Q E :=
  fun s hs => h s hs

/-- Reading the state gives it and leaves it. -/
theorem get {Q : σ → σ → Prop} (h : ∀ s, P s → Q s s) :
    Ends P (MonadState.get : EStateM ε σ σ) Q E :=
  fun s hs => h s hs

/-- A change of the state ends in the changed state. -/
theorem change {f : σ → σ} {Q : PUnit → σ → Prop} (h : ∀ s, P s → Q ⟨⟩ (f s)) :
    Ends P (modify f : EStateM ε σ PUnit) Q E :=
  fun s hs => h s hs

/-- A sequence ends where the second call may end from where the first may. -/
theorem bind {f : α → EStateM ε σ β} {R : β → σ → Prop} (hx : Ends P x Q E)
    (hf : ∀ a, Ends (Q a) (f a) R E) : Ends P (x >>= f) R E := by
  intro s hs
  rw [bind_eq]
  cases h : x s with
  | ok a s' => exact hf a s' (hx.of_ok hs h)
  | error e s' => exact hx.of_error hs h

/-- What each call for an element keeps, the calls for a list keep. -/
theorem forM {γ : Type} {l : List γ} {f : γ → EStateM ε σ PUnit}
    (h : ∀ c ∈ l, Ends P (f c) (fun _ => P) E) : Ends P (l.forM f) (fun _ => P) E := by
  induction l with
  | nil => exact Ends.pure fun s hs => hs
  | cons c rest ih =>
    refine (h c List.mem_cons_self).bind fun _ => ?_
    exact ih fun d hd => h d (List.mem_cons_of_mem _ hd)

/-- A call that keeps a property from every state on ends with it, with a result or an error. -/
theorem of_stateAfter (h : ∀ s, P s → P (TestChain.stateAfter x s)) :
    Ends P x (fun _ => P) fun _ => P := by
  intro s hs
  have after := h s hs
  unfold TestChain.stateAfter at after
  cases hx : x s with
  | ok a s' =>
    rw [hx] at after
    exact after
  | error e s' =>
    rw [hx] at after
    exact after

/-- A call whose states and errors all keep a property ends in a state with it. -/
theorem stateAfter (h : Ends P x (fun _ => P) fun _ => P) {s : σ} (hs : P s) :
    P (TestChain.stateAfter x s) := by
  unfold TestChain.stateAfter
  cases hx : x s with
  | ok a s' => exact h.of_ok hs hx
  | error e s' => exact h.of_error hs hx

end Ends

end TestChain
