/-
OfferAnswer/Proofs/LineCount.lean

How many lines there are, counted by their line feeds.

The count looks at line feeds alone, so it can be taken of a text and of bytes.
The lines that a text is taken apart into are as many (`length_texts`), and
encoding does not change the count (`lineCount_encode`): a line feed is its own
byte, and no other character has that byte.
-/
import OfferAnswer.Text.Lines
import OfferAnswer.Proofs.Outcome
import OfferAnswer.Proofs.Text
import OfferAnswer.Proofs.Utf8

namespace OfferAnswer

open Outcome

/-! ### Counting -/

section

variable {α : Type} [DecidableEq α] {feed x : α} {xs ys : List α}

/-- The number of lines: every line feed ends one, and what stands behind the
last line feed is a line unless it is empty. -/
def lineCount (feed : α) (xs : List α) : Nat :=
  xs.count feed + if xs.getLast?.all (· = feed) then 0 else 1

theorem count_le_lineCount : xs.count feed ≤ lineCount feed xs := Nat.le_add_right _ _

@[simp] theorem lineCount_nil : lineCount feed [] = 0 := rfl

theorem lineCount_cons_feed : lineCount feed (feed :: xs) = lineCount feed xs + 1 := by
  cases xs with
  | nil => simp [lineCount]
  | cons y ys =>
    rw [lineCount, lineCount, List.count_cons_self, List.getLast?_cons_cons]
    omega

theorem lineCount_cons_of_ne (h : x ≠ feed) :
    lineCount feed (x :: xs) = if xs = [] then 1 else lineCount feed xs := by
  cases xs with
  | nil => simp [lineCount, h]
  | cons y ys =>
    rw [lineCount, List.count_cons_of_ne h, List.getLast?_cons_cons, if_neg (List.cons_ne_nil y ys)]
    rfl

theorem lineCount_append_of_not_mem (h : feed ∉ xs) (hne : xs ≠ []) :
    lineCount feed (xs ++ ys) = if ys = [] then 1 else lineCount feed ys := by
  induction xs with
  | nil => exact absurd rfl hne
  | cons x xs ih =>
    rw [List.mem_cons, not_or] at h
    rw [List.cons_append, lineCount_cons_of_ne (Ne.symm h.1)]
    cases xs with
    | nil => rfl
    | cons y xs => exact (if_neg (List.cons_ne_nil _ _)).trans (ih h.2 (List.cons_ne_nil y xs))

end

/-! ### The lines of a text -/

namespace Line

variable {t : Text}

/-- The lines of a text, empty ones included. -/
def texts (t : Text) : List Text := ofParts (t.splitOn '\n')

/-- There are as many lines as are counted. -/
theorem length_texts (t : Text) : (texts t).length = lineCount '\n' t := by
  induction t with
  | nil => rfl
  | cons c t ih =>
    obtain ⟨part, parts, hparts⟩ := List.exists_cons_of_ne_nil (List.splitOn_ne_nil '\n' t)
    rw [texts, hparts] at ih
    rw [texts, List.splitOn_cons_eq_if_modifyHead, hparts]
    by_cases hc : c = '\n'
    · subst hc
      rw [lineCount_cons_feed, ← ih]
      rfl
    · rw [if_neg (by simpa using hc), List.modifyHead_cons, lineCount_cons_of_ne hc, ← ih]
      cases parts with
      | nil =>
        -- A text without line feeds is its only part.
        obtain ⟨hjoin, -⟩ := Text.splitOn_eq_iff.mp hparts
        obtain rfl : part = t := by simpa [List.intercalate] using hjoin
        by_cases ht : part = [] <;> simp [ofParts, ht]
      | cons part' rest =>
        have ht : t ≠ [] := by
          rintro rfl
          simp at hparts
        rw [if_neg ht]
        rfl

end Line

/-! ### Bytes -/

namespace Text.Utf8

variable {bytes : List UInt8} {t : Text}

/-- Only a line feed has the byte of a line feed: every character of more than
one byte has bytes from 0x80 on. -/
theorem feed_mem_encodeChar_iff (c : Char) : 10 ∈ encodeChar c ↔ c = '\n' := by
  have hvalid : c.toNat < 0xD800 ∨ 0xDFFF < c.toNat ∧ c.toNat < 0x110000 := c.valid
  have hbyte : ∀ {n : Nat}, 10 = UInt8.ofNat n → n < 256 → n = 10 := fun h hn => by
    rw [← UInt8.toNat_ofNat_of_lt' hn, ← h]
    rfl
  constructor
  · intro h
    unfold encodeChar at h
    dsimp only at h
    split_ifs at h <;> simp only [List.mem_cons, List.not_mem_nil, or_false] at h
    · exact Char.toNat_inj.mp (hbyte h (by omega))
    · rcases h with h | h <;> have := hbyte h (by omega) <;> omega
    · rcases h with h | h | h <;> have := hbyte h (by omega) <;> omega
    · rcases h with h | h | h | h <;> have := hbyte h (by omega) <;> omega
  · rintro rfl
    decide

theorem encode_eq_nil_iff : encode t = [] ↔ t = [] := by
  cases t <;> simp [encode, encodeChar_ne_nil]

theorem lineCount_encode (t : Text) : lineCount 10 (encode t) = lineCount '\n' t := by
  induction t with
  | nil => rfl
  | cons c t ih =>
    show lineCount 10 (encodeChar c ++ encode t) = _
    by_cases hc : c = '\n'
    · subst hc
      show lineCount 10 (10 :: encode t) = _
      rw [lineCount_cons_feed, lineCount_cons_feed, ih]
    · have hfeed : 10 ∉ encodeChar c := mt (feed_mem_encodeChar_iff c).mp hc
      rw [lineCount_append_of_not_mem hfeed (encodeChar_ne_nil c), lineCount_cons_of_ne hc, ih]
      simp [encode_eq_nil_iff]

/-- A text has as many lines as the bytes that stand for it. -/
theorem lineCount_of_decode (h : decode bytes = .ok t) : lineCount 10 bytes = lineCount '\n' t := by
  rw [decode_eq_ok_iff.mp h, lineCount_encode]

end Text.Utf8

end OfferAnswer
