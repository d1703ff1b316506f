/-
OfferAnswer/Proofs/Decimal.lean

Integers written and read again.

An integer that fits some bounds, and is short enough to be written, is read
from its own text under these bounds; and every integer that was read fits.
So reading an integer and writing it normalises the text and keeps the number.
-/
import Mathlib.Algebra.Ring.Int.Defs
import Mathlib.Algebra.Ring.Nat
import OfferAnswer.Decimal
import OfferAnswer.Proofs.Outcome
import OfferAnswer.Proofs.Text

namespace OfferAnswer.Decimal

open Text Outcome

variable {p : Char → Prop} {b : Bounds} {n : Int} {t : Text}

/-! ### The text of an integer -/

theorem isDigit_of_mem_toDigits {c : Char} {m : Nat} (h : c ∈ Nat.toDigits 10 m) :
    c.isDigit = true :=
  Nat.isDigit_of_mem_toDigits (by decide) (by decide) h

theorem isPlain_of_isDigit {c : Char} (h : c.isDigit = true) : IsPlain c := by
  simp only [Char.isDigit, Bool.and_eq_true, decide_eq_true_eq] at h
  exact ⟨Nat.le_trans (by decide) h.1, Nat.le_trans h.2 (by decide)⟩

/-- The characters of an integer are digits and the minus sign. -/
theorem mem_text {c : Char} (h : c ∈ text n) : c = '-' ∨ c.isDigit = true := by
  unfold text at h
  split at h
  · rcases List.mem_cons.mp h with rfl | h
    · exact .inl rfl
    · exact .inr (isDigit_of_mem_toDigits h)
  · exact .inr (isDigit_of_mem_toDigits h)

theorem not_mem_text {c : Char} (hsign : c ≠ '-') (hdigit : c.isDigit = false) :
    c ∉ text n := by
  intro h
  rcases mem_text h with h | h
  · exact hsign h
  · simp [hdigit] at h

/-- An integer is a word. -/
theorem isWord_text (n : Int) : IsWord IsPlain (text n) where
  ne_nil := by
    unfold text
    split <;> simp
  blank_not_mem := not_mem_text (by decide) (by decide)
  chars c hc := by
    rcases mem_text hc with rfl | h
    · decide
    · exact isPlain_of_isDigit h

theorem over_text [Alphabet p] (n : Int) : Over p (text n) := (isWord_text n).chars.of_plain

/-- An index has no sign. -/
theorem text_natCast (m : Nat) : text m = Nat.toDigits 10 m := by
  rw [text, if_neg (Int.not_lt.mpr (Int.natCast_nonneg m)), Int.natAbs_natCast]

/-- No two indices are written alike. -/
theorem text_natCast_inj {m k : Nat} : text m = text k ↔ m = k := by
  refine ⟨fun h => ?_, fun h => by rw [h]⟩
  rw [text_natCast, text_natCast] at h
  have hread := congrArg ofDigits h
  rwa [ofDigits_toDigits, ofDigits_toDigits] at hread

/-! ### Reading an integer that was written -/

theorem isDigits_iff : isDigits t = true ↔ t ≠ [] ∧ ∀ c ∈ t, c.isDigit = true := by
  simp only [isDigits, Bool.and_eq_true, Bool.not_eq_true', List.isEmpty_eq_false_iff,
    List.all_eq_true]

theorem isDigits_toDigits (m : Nat) : isDigits (Nat.toDigits 10 m) = true :=
  isDigits_iff.mpr ⟨Nat.toDigits_ne_nil, fun _ hc => isDigit_of_mem_toDigits hc⟩

/-- Digits have no sign to split off. -/
theorem splitSign_of_isDigits {d : Text} (h : isDigits d = true) :
    splitSign d = (false, d) := by
  unfold splitSign
  split
  · next digits => exact absurd h (by simp [isDigits, Char.isDigit])
  · rfl

/-- Digits that are not too many stand for their number, after a minus sign
for the negative of it. -/
theorem ofText?_of_splitSign {negative : Bool} {d : Text} (h : splitSign t = (negative, d))
    (hd : isDigits d = true) (hlen : d.length ≤ maxDigits) :
    ofText? t = .ok (if negative then -(ofDigits d : Int) else ofDigits d) := by
  simp [ofText?, h, hd, Nat.not_lt.mpr hlen]

theorem ofText?_text (h : isWritable n = true) : ofText? (text n) = .ok n := by
  have hlen : (Nat.toDigits 10 n.natAbs).length ≤ maxDigits := of_decide_eq_true h
  have hdigits := isDigits_toDigits n.natAbs
  by_cases hneg : n < 0
  · have hsplit : splitSign (text n) = (true, Nat.toDigits 10 n.natAbs) := by
      rw [text, if_pos hneg, splitSign]
    rw [ofText?_of_splitSign hsplit hdigits hlen, ofDigits_toDigits, if_pos rfl,
      Int.ofNat_natAbs_of_nonpos (Int.le_of_lt hneg), Int.neg_neg]
  · have hsplit : splitSign (text n) = (false, Nat.toDigits 10 n.natAbs) := by
      rw [text, if_neg hneg, splitSign_of_isDigits hdigits]
    rw [ofText?_of_splitSign hsplit hdigits hlen, ofDigits_toDigits, if_neg (by decide),
      Int.natAbs_of_nonneg (Int.not_lt.mp hneg)]

/-! ### Writing an integer that was read -/

theorem ofDigitChars_lt {d : Text} (h : ∀ c ∈ d, c.isDigit = true) (m : Nat) :
    Nat.ofDigitChars 10 d m < (m + 1) * 10 ^ d.length := by
  induction d generalizing m with
  | nil => simp
  | cons c d ih =>
    have hc : c.toNat - '0'.toNat ≤ 9 := by
      have := h c (by simp)
      simp only [Char.isDigit, Bool.and_eq_true, decide_eq_true_eq] at this
      have h9 : c.toNat ≤ 57 := this.2
      change c.toNat - 48 ≤ 9
      omega
    rw [Nat.ofDigitChars_cons, List.length_cons, Nat.pow_succ, Nat.mul_comm (10 ^ _) 10,
      ← Nat.mul_assoc]
    refine Nat.lt_of_lt_of_le (ih (fun c hc => h c (List.mem_cons_of_mem _ hc)) _) ?_
    exact Nat.mul_le_mul_right _ (by omega)

theorem ofDigits_lt {d : Text} (h : isDigits d = true) : ofDigits d < 10 ^ d.length := by
  simpa [ofDigits] using ofDigitChars_lt (isDigits_iff.mp h).2 0

/-- As many digits as were read are enough to write the number. -/
theorem length_toDigits_ofDigits {d : Text} (h : isDigits d = true) :
    (Nat.toDigits 10 (ofDigits d)).length ≤ d.length := by
  have hpos : 0 < d.length := List.length_pos_iff.mpr (isDigits_iff.mp h).1
  exact (Nat.length_toDigits_le_iff (by decide) hpos).mpr (ofDigits_lt h)

/-- A text is read if digits stand in it, not too many and with at most a minus
sign before them. -/
theorem exists_of_ofText? (h : ofText? t = .ok n) :
    ∃ negative d, splitSign t = (negative, d) ∧ isDigits d = true ∧ d.length ≤ maxDigits
      ∧ n = if negative then -(ofDigits d : Int) else ofDigits d := by
  unfold ofText? at h
  generalize hs : splitSign t = s at h
  obtain ⟨negative, d⟩ := s
  simp only at h
  split at h
  · simp at h
  · next hd =>
    split at h
    · simp at h
    · next hlen =>
      exact ⟨negative, d, rfl, by simpa using hd, Nat.not_lt.mp hlen, (Except.ok.inj h).symm⟩

theorem isWritable_of_ofText? (h : ofText? t = .ok n) : isWritable n = true := by
  obtain ⟨negative, d, -, hd, hlen, hn⟩ := exists_of_ofText? h
  -- Leading zeros are counted when it is read, and not written.
  have habs : n.natAbs = ofDigits d := by
    split at hn <;> omega
  have := length_toDigits_ofDigits hd
  simp only [isWritable, habs, decide_eq_true_eq]
  omega

/-- Leading zeros and the minus sign counted, an integer is less than ten to the
length of its text. -/
theorem natAbs_lt_of_ofText? (h : ofText? t = .ok n) : n.natAbs < 10 ^ t.length := by
  obtain ⟨negative, d, hsplit, hd, -, hn⟩ := exists_of_ofText? h
  have hlength : d.length ≤ t.length := by
    unfold splitSign at hsplit
    split at hsplit <;> obtain ⟨-, rfl⟩ := Prod.mk.inj hsplit <;> simp
  have habs : n.natAbs = ofDigits d := by
    split at hn <;> omega
  rw [habs]
  exact Nat.lt_of_lt_of_le (ofDigits_lt hd) (Nat.pow_le_pow_right (by decide) hlength)

theorem isWritable_iff : isWritable n = true ↔ n.natAbs < 10 ^ maxDigits :=
  decide_eq_true_iff.trans (Nat.length_toDigits_le_iff (by decide) (by decide))

/-! ### Bounds -/

/-- An integer within bounds that is short enough to be written. -/
structure Fits (b : Bounds) (n : Int) : Prop where
  least : ∀ l ∈ b.least, l ≤ n
  most : ∀ m ∈ b.most, n ≤ m
  writable : isWritable n = true

theorem check_eq_ok_iff {m : Int} :
    b.check n = .ok m ↔ n = m ∧ (∀ l ∈ b.least, l ≤ n) ∧ ∀ u ∈ b.most, n ≤ u := by
  obtain ⟨least, most⟩ := b
  cases least <;> cases most <;> simp only [Bounds.check, Bounds.check.checkMost] <;>
    (repeat' split) <;> simp <;> omega

theorem fits_of_read (h : read b t = .ok n) : Fits b n := by
  obtain ⟨m, hm, hcheck⟩ := bind_eq_ok.mp h
  obtain ⟨rfl, hl, hu⟩ := check_eq_ok_iff.mp hcheck
  exact ⟨hl, hu, isWritable_of_ofText? hm⟩

theorem read_text (h : Fits b n) : read b (text n) = .ok n :=
  bind_eq_ok.mpr ⟨n, ofText?_text h.writable, check_eq_ok_iff.mpr ⟨rfl, h.least, h.most⟩⟩

/-- Small integers can be written. -/
theorem isWritable_of_natAbs_lt (h : n.natAbs < 10 ^ 20) : isWritable n = true := by
  have : (Nat.toDigits 10 n.natAbs).length ≤ 20 :=
    (Nat.length_toDigits_le_iff (by decide) (by decide)).mpr h
  exact decide_eq_true (Nat.le_trans this (by decide))

theorem fits_upTo {m : Int} (hm : m < 10 ^ 20) (h₀ : 0 ≤ n) (h : n ≤ m) :
    Fits (.upTo m) n where
  least l hl := by
    obtain rfl : 0 = l := by simpa [Bounds.upTo] using hl
    exact h₀
  most u hu := by
    obtain rfl : m = u := by simpa [Bounds.upTo] using hu
    exact h
  writable := isWritable_of_natAbs_lt (by omega)

end OfferAnswer.Decimal
