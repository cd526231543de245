import Mathlib.Data.List.TakeWhile
import TestChain.Proofs.Text.Digits
import TestChain.Text.Blank

/-!
# White space around a text

White space at the ends of a text is dropped, however much there is (`trim_append`), and nothing
else (`trim_of_not_blank`). Numbers have none, in whatever case their letters are written
(`not_blank_of_readNat?`, `isBlank_toLower`).
-/

namespace TestChain.Text

variable {a b s : List Char} {base n : Nat}

/-- White space around a text does not count. -/
theorem trim_append (ha : ∀ c ∈ a, isBlank c = true) (hb : ∀ c ∈ b, isBlank c = true) :
    trim (a ++ s ++ b) = trim s := by
  unfold trim
  rw [List.append_assoc, List.dropWhile_append_of_pos ha, List.dropWhile_append]
  split
  · next blank =>
    rw [List.isEmpty_iff.1 blank, List.dropWhile_eq_nil_iff.2 hb]
  · rw [List.reverse_append, List.dropWhile_append_of_pos fun c hc => hb c (List.mem_reverse.1 hc)]

/-- A text without white space is kept. -/
theorem trim_of_not_blank (h : ∀ c ∈ s, isBlank c = false) : trim s = s := by
  have kept : ∀ {t : List Char}, (∀ c ∈ t, isBlank c = false) → t.dropWhile isBlank = t := by
    intro t ht
    cases t with
    | nil => rfl
    | cons c rest =>
      exact List.dropWhile_cons_of_neg (Bool.eq_false_iff.1 (ht c List.mem_cons_self))
  unfold trim
  rw [kept h, kept fun c hc => h c (List.mem_reverse.1 hc), List.reverse_reverse]

/-- A text without white space is what stands between the white space around it. -/
theorem trim_around (ha : ∀ c ∈ a, isBlank c = true) (hs : ∀ c ∈ s, isBlank c = false)
    (hb : ∀ c ∈ b, isBlank c = true) : trim (a ++ s ++ b) = s := by
  rw [trim_append ha hb, trim_of_not_blank hs]

/-- White space has no case. -/
theorem isBlank_toLower (c : Char) : isBlank c.toLower = isBlank c := by
  have lower := toNat_toLower c
  unfold isBlank
  split at lower
  · rw [lower, Bool.eq_iff_iff]
    simp only [Bool.or_eq_true, Bool.and_eq_true, decide_eq_true_eq]
    omega
  · rw [lower]

/-- A digit is no white space. -/
theorem isBlank_of_digitValue? {c : Char} {d : Nat} (h : digitValue? c = some d) :
    isBlank c = false := by
  have range : 48 ≤ c.toNat ∧ c.toNat ≤ 122 := by
    rw [digitValue?_eq] at h
    split at h
    · omega
    · split at h
      · omega
      · split at h
        · omega
        · cases h
  unfold isBlank
  rw [Bool.eq_false_iff]
  simp only [ne_eq, Bool.or_eq_true, Bool.and_eq_true, decide_eq_true_eq]
  omega

/-- There is no white space in what is read as further digits. -/
theorem not_blank_of_readDigits? {value : Nat} (h : readDigits? base value s = some n) :
    ∀ c ∈ s, isBlank c = false := by
  induction s generalizing value with
  | nil => exact List.forall_mem_nil _
  | cons c rest ih =>
    unfold readDigits? at h
    split at h
    · next d hd =>
      split at h
      · exact List.forall_mem_cons.2 ⟨isBlank_of_digitValue? hd, ih h⟩
      · cases h
    · cases h

/-- There is no white space in what is read as a number. -/
theorem not_blank_of_readNat? (h : readNat? base s = some n) : ∀ c ∈ s, isBlank c = false := by
  unfold readNat? at h
  split at h
  · cases h
  · exact not_blank_of_readDigits? h

end TestChain.Text
