/-
OfferAnswer/Proofs/Case.lean

Separators in lower case.

Nothing that changes with the case turns into a character below the capital
letters, such as a blank, a slash or a line feed.  So texts that differ only
in case have the same separators: both fit on one line or neither does, and
both are words or neither is.
-/
import OfferAnswer.Proofs.Text
import OfferAnswer.Text.Case

namespace OfferAnswer.Text

variable {a b t : Text} {c d : Char}

/-! ### Characters -/

/-- A number that is no character stands for the first of all. -/
theorem toNat_ofNat_cases (n : Nat) : (Char.ofNat n).toNat = n ∨ (Char.ofNat n).toNat = 0 := by
  by_cases h : n.isValidChar
  · rw [Char.ofNat, dif_pos h]
    exact .inl rfl
  · rw [Char.ofNat, dif_neg h]
    exact .inr rfl

/-- Below the capital letters. -/
def IsLow (d : Char) : Prop := 0 < d.toNat ∧ d.toNat < 'A'.toNat

instance : DecidablePred IsLow := fun d =>
  inferInstanceAs (Decidable (0 < d.toNat ∧ d.toNat < 'A'.toNat))

theorem IsLow.ne (hd : IsLow d) (hc : 'A'.toNat ≤ c.toNat) : d ≠ c := by
  rintro rfl
  exact absurd hd.2 (Nat.not_lt.mpr hc)

/-- The images of the table are not low. -/
theorem lowerRuns_image : ∀ r ∈ lowerRuns, 'A'.toNat ≤ r.image := by decide +kernel

theorem imageIn_lowerRuns_ne (hd : IsLow d) (hc : d ≠ c) : d ≠ imageIn lowerRuns c := by
  rw [imageIn]
  split
  · next n hn =>
    obtain ⟨r, hr, hn⟩ := List.exists_of_findSome?_eq_some hn
    unfold CaseRun.image? at hn
    split at hn
    · obtain rfl := Option.some.inj hn
      have himage := lowerRuns_image r hr
      obtain ⟨hpos, hlow⟩ := hd
      rintro rfl
      rcases toNat_ofNat_cases (r.image + (c.toNat - r.first)) with h | h <;> omega
    · simp at hn
  · exact hc

theorem mem_lowerChar_iff (hd : IsLow d) : d ∈ lowerChar c ↔ d = c := by
  unfold lowerChar
  split
  · rw [List.mem_singleton]
    unfold Char.toLower
    split
    · -- a capital letter, whose image is a letter too
      next hc =>
      have hfirst : 65 ≤ c.toNat := hc.1
      have hlast : c.toNat ≤ 90 := hc.2
      refine iff_of_false (hd.ne ?_) (hd.ne hfirst)
      change 65 ≤ _
      simp
      omega
    · rfl
  · next h =>
    have hne : d ≠ c := by
      rintro rfl
      exact h (Nat.lt_trans hd.2 (by decide))
    refine iff_of_false ?_ hne
    split
    · simp only [List.mem_cons, List.not_mem_nil, or_false, not_or]
      exact ⟨hd.ne (by decide), hd.ne (by decide)⟩
    · rw [List.mem_singleton]
      exact imageIn_lowerRuns_ne hd hne

theorem lowerChar_ne_nil (c : Char) : lowerChar c ≠ [] := by
  unfold lowerChar
  repeat' split
  all_goals exact List.cons_ne_nil _ _

/-! ### Texts -/

/-- Low characters are where they were. -/
theorem mem_lower_iff (hd : IsLow d) : d ∈ lower t ↔ d ∈ t := by
  suffices ∀ inWord, d ∈ lowerAfter inWord t ↔ d ∈ t from this false
  induction t with
  | nil => simp [lowerAfter]
  | cons c rest ih =>
    intro inWord
    rw [lowerAfter, List.mem_append, ih, List.mem_cons]
    refine or_congr_left ?_
    split
    · next hc =>
      refine iff_of_false ?_ (hd.ne (hc ▸ by decide))
      split <;> rw [List.mem_singleton] <;> exact hd.ne (by decide)
    · exact mem_lowerChar_iff hd

theorem lower_eq_nil_iff : lower t = [] ↔ t = [] := by
  cases t with
  | nil => simp [lower, lowerAfter]
  | cons c rest =>
    refine iff_of_false (fun h => ?_) (List.cons_ne_nil c rest)
    have hfirst := (List.append_eq_nil_iff.mp h).1
    split at hfirst
    · exact List.cons_ne_nil _ _ hfirst
    · exact lowerChar_ne_nil c hfirst

/-- Texts that differ only in case have the same low characters. -/
theorem not_mem_of_lower_eq (hd : IsLow d) (h : lower a = lower b) (ha : d ∉ a) : d ∉ b := by
  rw [← mem_lower_iff hd] at ha ⊢
  exact h ▸ ha

theorem ne_nil_of_lower_eq (h : lower a = lower b) (ha : a ≠ []) : b ≠ [] := by
  rw [Ne, ← lower_eq_nil_iff] at ha ⊢
  exact h ▸ ha

/-- Texts that differ only in case fit on a line both or neither. -/
theorem Over.of_lower_eq (h : lower a = lower b) (ha : Over InLine a) : Over InLine b :=
  over_inLine.mpr (not_mem_of_lower_eq (by decide) h (over_inLine.mp ha))

end OfferAnswer.Text
