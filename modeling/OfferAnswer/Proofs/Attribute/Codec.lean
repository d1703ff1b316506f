/-
OfferAnswer/Proofs/Attribute/Codec.lean

What the readers of attribute values accept, word by word.

A reader that asks for words gets non-empty texts, and all of them but the one
that keeps what remains are words.  Written between blanks, such texts are the
words of what was written.
-/
import OfferAnswer.Attribute.Codec
import OfferAnswer.Proofs.Decimal
import OfferAnswer.Proofs.Vocabulary

namespace OfferAnswer.Attribute

open Text Outcome

variable {p : Char → Prop} {least n : Nat} {raw t : Text} {ws : List Text}

/-! ### Words of a value -/

theorem enough_eq_ok_iff {ws' : List Text} :
    enough least raw ws = .ok ws' ↔ ws = ws' ∧ least ≤ ws.length ∧ [] ∉ ws := by
  unfold enough
  split
  · next h =>
    have hrefused : ¬ (least ≤ ws.length ∧ [] ∉ ws) := by
      rw [List.contains_iff_mem] at h
      exact fun hok => h.elim (Nat.not_lt.mpr hok.1) hok.2
    simp [hrefused]
  · next h =>
    rw [not_or, List.contains_iff_mem] at h
    simp [Nat.not_lt.mp h.1, h.2]

theorem isWord_of_wordsOf (hraw : Over p raw) (h : wordsOf least raw = .ok ws) :
    ∀ w ∈ ws, IsWord p w := by
  obtain ⟨rfl, -, hne⟩ := enough_eq_ok_iff.mp h
  intro w hw
  exact ⟨fun he => hne (he ▸ hw), not_mem_of_mem_splitOn hw, hraw.of_mem_words hw⟩

theorem wordsOf_unwords (hlen : least ≤ ws.length) (hws : ws ≠ []) (h : ∀ w ∈ ws, IsWord p w) :
    wordsOf least (unwords ws) = .ok ws := by
  have hwords : words (unwords ws) = ws := words_unwords hws fun w hw => (h w hw).blank_not_mem
  rw [wordsOf, hwords]
  exact enough_eq_ok_iff.mpr ⟨rfl, hlen, fun hm => (h [] hm).ne_nil rfl⟩

/-- The first words of a value are words, and what remains is not empty. -/
theorem isWord_of_wordsUpTo (hraw : Over p raw) (h : wordsUpTo least (n + 1) raw = .ok ws) :
    (∀ w ∈ ws.take n, IsWord p w) ∧ ∀ w ∈ ws, w ≠ [] ∧ Over p w := by
  obtain ⟨hws, -, hne⟩ := enough_eq_ok_iff.mp h
  rw [hws] at hne
  obtain ⟨hraw', -, -, hblank⟩ := splitAtMost_eq_iff.mp hws
  have hfilled : ∀ w ∈ ws, w ≠ [] ∧ Over p w := fun w hw =>
    ⟨fun he => hne (he ▸ hw), over_of_over_intercalate (hraw' ▸ hraw) hw⟩
  refine ⟨fun w hw => ?_, hfilled⟩
  obtain ⟨hw₁, hw₂⟩ := hfilled w (List.mem_of_mem_take hw)
  exact ⟨hw₁, hblank w hw, hw₂⟩

/-- Words and what remains after them, if anything does. -/
theorem wordsUpTo_unwords {o : Option Text} (hn : ws.length = n) (hws : ws ≠ [])
    (hleast : least ≤ (ws ++ o.toList).length) (h : ∀ w ∈ ws, IsWord p w)
    (ho : ∀ t ∈ o, t ≠ []) :
    wordsUpTo least (n + 1) (unwords (ws ++ o.toList)) = .ok (ws ++ o.toList) := by
  subst hn
  have hsplit : splitAtMost ' ' ws.length (unwords (ws ++ o.toList)) = ws ++ o.toList := by
    refine splitAtMost_eq_iff.mpr ⟨rfl, by simp [hws], ?_, fun w hw => ?_⟩
    · cases o <;> simp
    · rw [List.take_left] at hw
      exact (h w hw).blank_not_mem
  rw [wordsUpTo, Nat.add_sub_cancel, hsplit]
  refine enough_eq_ok_iff.mpr ⟨rfl, hleast, ?_⟩
  rw [List.mem_append, Option.mem_toList, not_or]
  exact ⟨fun hm => (h [] hm).ne_nil rfl, fun hm => ho [] hm rfl⟩

/-- A word, and what remains after it. -/
theorem wordsUpTo_pair {a b : Text} (ha : IsWord p a) (hb : b ≠ []) :
    wordsUpTo 2 2 (unwords [a, b]) = .ok [a, b] :=
  have hwords : ∀ w ∈ [a], IsWord p w := by simpa using ha
  wordsUpTo_unwords (o := some b) rfl (List.cons_ne_nil a []) (by simp) hwords (by simpa using hb)

/-- Two words, and what remains after them, if anything does. -/
theorem wordsUpTo_triple {a b : Text} {o : Option Text} (ha : IsWord p a) (hb : IsWord p b)
    (ho : ∀ t ∈ o, t ≠ []) :
    wordsUpTo 2 3 (unwords ([a, b] ++ o.toList)) = .ok ([a, b] ++ o.toList) :=
  wordsUpTo_unwords rfl (by simp) (by simp) (by simpa using ⟨ha, hb⟩) ho

/-! ### Single values -/

theorem integer_eq_ok_iff {b : Decimal.Bounds} {i : Int} :
    integer b t = .ok i ↔ Decimal.read b t = .ok i :=
  mapError_eq_ok

theorem fits_of_integer {b : Decimal.Bounds} {i : Int} (h : integer b t = .ok i) :
    Decimal.Fits b i :=
  Decimal.fits_of_read (integer_eq_ok_iff.mp h)

@[simp] theorem integer_text {b : Decimal.Bounds} {i : Int} (h : Decimal.Fits b i) :
    integer b (Decimal.text i) = .ok i :=
  integer_eq_ok_iff.mpr (Decimal.read_text h)

@[simp] theorem word_spelling {κ : Type} [Vocabulary κ] (k : κ) :
    (word (Vocabulary.spelling k) : Except CodecFault κ) = .ok k := by
  rw [word, Vocabulary.ofText_spelling]
  rfl

end OfferAnswer.Attribute
