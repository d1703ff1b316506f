/-
OfferAnswer/Proofs/Canonical/Value.lean

Single values that are written as they were read.

A value does not remember how it was spelled: its leading zeros, the case of a
registered word or of a hexadecimal digit, the unit of a time.  For each kind
of value there is a test of texts that does not read them, and what is read
from a text that passes the test is written as that text again.
-/
import Mathlib.Data.List.Induction
import OfferAnswer.Duration
import OfferAnswer.Proofs.Decimal
import OfferAnswer.Proofs.Fingerprint
import OfferAnswer.Proofs.Vocabulary

namespace OfferAnswer

open Text Outcome

variable {t : Text} {n : Int}

/-! ### Integers -/

namespace Decimal

variable {d : Text}

/-- Whether a text has no leading zero and is not the negative of zero. -/
def isCanonical (t : Text) : Bool :=
  let digits := (splitSign t).2
  t != ['-', '0'] && (digits.head? != some '0' || digits == ['0'])

/-- A digit is the one that stands for its number. -/
theorem digitChar_of_isDigit {c : Char} (h : c.isDigit = true) :
    c.toNat - 48 < 10 ∧ Nat.digitChar (c.toNat - 48) = c := by
  simp only [Char.isDigit, Bool.and_eq_true, decide_eq_true_eq] at h
  have hlow : 48 ≤ c.toNat := h.1
  have hhigh : c.toNat ≤ 57 := h.2
  have hall : ∀ n < 10, Nat.digitChar n = Char.ofNat (48 + n) := by decide
  refine ⟨by omega, ?_⟩
  rw [hall _ (by omega), Nat.add_sub_cancel' hlow, Char.ofNat_toNat]

/-- Digits that do not begin with a zero are those of a positive number. -/
theorem toDigits_ofDigits_of_head? (hne : d ≠ []) (hd : ∀ c ∈ d, c.isDigit = true)
    (hhead : d.head? ≠ some '0') : 0 < ofDigits d ∧ Nat.toDigits 10 (ofDigits d) = d := by
  induction d using List.reverseRecOn with
  | nil => exact absurd rfl hne
  | append_singleton d c ih =>
    rw [List.forall_mem_append, List.forall_mem_singleton] at hd
    obtain ⟨hlt, hchar⟩ := digitChar_of_isDigit hd.2
    have hsum : ofDigits (d ++ [c]) = 10 * ofDigits d + (c.toNat - 48) := by
      rw [ofDigits, Nat.ofDigitChars_append]
      rfl
    rw [hsum]
    rcases eq_or_ne d [] with rfl | hd₀
    · -- one digit alone, which is not zero
      have hpos : c.toNat - 48 ≠ 0 := fun hz => hhead (by rw [← hchar, hz]; rfl)
      have hzero : ofDigits [] = 0 := rfl
      rw [hzero, Nat.mul_zero, Nat.zero_add, Nat.toDigits_of_lt_base hlt, hchar]
      exact ⟨Nat.pos_of_ne_zero hpos, rfl⟩
    · rw [List.head?_append_of_ne_nil _ hd₀] at hhead
      obtain ⟨hpos, hdigits⟩ := ih hd₀ hd.1 hhead
      refine ⟨by omega, ?_⟩
      rw [← Nat.toDigits_append_toDigits (by decide) hpos hlt, hdigits,
        Nat.toDigits_of_lt_base hlt, hchar]

/-- A sign is split off the front, and nothing is lost. -/
theorem eq_of_splitSign {negative : Bool} (h : splitSign t = (negative, d)) :
    t = if negative then '-' :: d else d := by
  unfold splitSign at h
  split at h
  · obtain ⟨rfl, rfl⟩ := Prod.mk.inj h
    rfl
  · obtain ⟨rfl, rfl⟩ := Prod.mk.inj h
    rfl

/-- An integer is written as the canonical text that it was read from. -/
theorem text_of_ofText? (h : ofText? t = .ok n) (hc : isCanonical t = true) : text n = t := by
  obtain ⟨negative, d, hsplit, hd, -, rfl⟩ := exists_of_ofText? h
  simp only [isCanonical, hsplit, Bool.and_eq_true, Bool.or_eq_true, bne_iff_ne,
    beq_iff_eq] at hc
  obtain ⟨hnegzero, hzero⟩ := hc
  have ht := eq_of_splitSign hsplit
  have hd := isDigits_iff.mp hd
  cases negative with
  | true =>
    -- After a minus sign there is no zero alone.
    have hhead : d.head? ≠ some '0' := hzero.resolve_right fun he => hnegzero (he ▸ ht)
    obtain ⟨hpos, htext⟩ := toDigits_ofDigits_of_head? hd.1 hd.2 hhead
    have hneg : -(ofDigits d : Int) < 0 := by omega
    rw [if_pos rfl, text, if_pos hneg, Int.natAbs_neg, Int.natAbs_natCast, htext, ht]
    rfl
  | false =>
    obtain rfl : t = d := ht
    have hnonneg : ¬ (ofDigits t : Int) < 0 := Int.not_lt.mpr (Int.natCast_nonneg _)
    have htext : Nat.toDigits 10 (ofDigits t) = t := by
      rcases hzero with hhead | rfl
      · exact (toDigits_ofDigits_of_head? hd.1 hd.2 hhead).2
      · rfl
    rw [if_neg Bool.false_ne_true, text, if_neg hnonneg, Int.natAbs_natCast, htext]

theorem text_of_read {b : Bounds} (h : read b t = .ok n) (hc : isCanonical t = true) :
    text n = t := by
  obtain ⟨m, hm, hcheck⟩ := bind_eq_ok.mp h
  obtain ⟨rfl, -⟩ := check_eq_ok_iff.mp hcheck
  exact text_of_ofText? hm hc

end Decimal

/-! ### Times -/

namespace Duration

/-- Whether a time carries no unit, and its count is canonical. -/
def isCanonical (t : Text) : Bool := (t.getLast?.bind unit?).isNone && Decimal.isCanonical t

/-- A time without a unit is an integer, and short enough to be written. -/
theorem text_of_read {signed : Bool} (h : read signed t = .ok n) (hc : isCanonical t = true) :
    Decimal.text n = t ∧ Decimal.isWritable n = true := by
  rw [isCanonical, Bool.and_eq_true, Option.isNone_iff_eq_none] at hc
  obtain ⟨hunit, hcount⟩ := hc
  have hsplit : split t = (t, 1) := by simp [split, hunit]
  unfold read at h
  simp only [hsplit] at h
  split at h
  · simp at h
  · split at h
    · next m hm =>
      obtain rfl : m = n := by simpa using h
      exact ⟨Decimal.text_of_ofText? hm hcount, Decimal.isWritable_of_ofText? hm⟩
    · simp at h
    · simp at h

end Duration

/-! ### Words -/

namespace Vocabulary

/-- Whether a text is no registered word in another case. -/
def isSpelled (κ : Type) [Vocabulary κ] (t : Text) : Bool :=
  (find? (κ := κ) t).all fun k => spelling k == t

variable {κ : Type} [Vocabulary κ] {k : κ}

/-- A text that matches a registered word but for case is spelled as this word. -/
theorem isSpelled_iff :
    isSpelled κ t = true ↔ ∀ k : κ, lower (spelling k) = lower t → spelling k = t := by
  simp only [isSpelled, Option.all_eq_true, beq_iff_eq, find?_eq_some_iff]

theorem spelling_of_ofText (h : ofText t = .ok k) (hc : isSpelled κ t = true) : spelling k = t :=
  isSpelled_iff.mp hc k (lower_spelling_of_find? (ofText_eq_ok_iff.mp h))

end Vocabulary

theorem Token.text_ofText {κ : Type} [Vocabulary κ] (hc : Vocabulary.isSpelled κ t = true) :
    (ofText t : Token κ).text = t := by
  unfold ofText
  split
  · next k hk => exact Vocabulary.isSpelled_iff.mp hc k (Vocabulary.lower_spelling_of_find? hk)
  · rfl

/-! ### Fingerprints -/

namespace Fingerprint

def upperHexDigits : List Char := "0123456789ABCDEF".toList

/-- Whether every octet is two upper-case hexadecimal digits. -/
def isCanonical (t : Text) : Bool :=
  (t.splitOn ':').all fun part => part.length == 2 && part.all (upperHexDigits.contains ·)

theorem octetText_of_octet? {b : UInt8} (h : octet? t = some b) (hlen : t.length = 2)
    (hdigits : ∀ c ∈ t, c ∈ upperHexDigits) : octetText b = t := by
  obtain ⟨x, y, rfl⟩ := List.length_eq_two.mp hlen
  -- There are few pairs of digits, so all of them are looked at.
  have hall : (upperHexDigits.all fun x => upperHexDigits.all fun y =>
      (octet? [x, y]).map octetText == some [x, y]) = true := by
    decide +kernel
  have hx := List.all_eq_true.mp hall x (hdigits x (by simp))
  have hxy := eq_of_beq (List.all_eq_true.mp hx y (hdigits y (by simp)))
  rw [h] at hxy
  exact Option.some.inj hxy

theorem map_octetText_of_mapM {parts : List Text} {bs : List UInt8}
    (h : parts.mapM octet? = some bs)
    (hparts : ∀ part ∈ parts, part.length = 2 ∧ ∀ c ∈ part, c ∈ upperHexDigits) :
    bs.map octetText = parts := by
  induction parts generalizing bs with
  | nil =>
    obtain rfl : [] = bs := by simpa using h
    rfl
  | cons part parts ih =>
    rw [List.forall_mem_cons] at hparts
    rw [List.mapM_cons] at h
    simp only [Option.bind_eq_bind, Option.bind_eq_some_iff] at h
    obtain ⟨b, hb, rest, hrest, h⟩ := h
    obtain rfl := Option.some.inj h
    rw [List.map_cons, octetText_of_octet? hb hparts.1.1 hparts.1.2, ih hrest hparts.2]

/-- A fingerprint is written as the canonical text that it was read from. -/
theorem text_of_ofText? {f : Fingerprint} (h : ofText? t = some f) (hc : isCanonical t = true) :
    f.text = t := by
  obtain ⟨bs, hbs, rfl⟩ := Option.map_eq_some_iff.mp h
  have hparts : ∀ part ∈ t.splitOn ':', part.length = 2 ∧ ∀ c ∈ part, c ∈ upperHexDigits := by
    simpa [isCanonical] using hc
  rw [text, map_octetText_of_mapM hbs hparts]
  exact List.intercalate_splitOn ':'

end Fingerprint

end OfferAnswer
