/-
OfferAnswer/Proofs/Field/Seconds.lean

Times that come back from their seconds.

A time is read as a count of some unit and kept in seconds, and the seconds are
read again as the same time if they can be written at all
(`Duration.comesBack_iff`).  A count is not too long to be written, for it was
read; but in a larger unit it can stand for more seconds than can be written,
so that the time, and the field in which it stands, cannot be written either.
-/
import OfferAnswer.Proofs.Field.Time

namespace OfferAnswer

open Text OfferAnswer.Field Outcome

namespace Duration

variable {signed : Bool} {t : Text} {n : Int}

/-- The seconds of a time can be written, and are read as the same time. -/
def ComesBack (signed : Bool) (t : Text) : Prop :=
  ∀ n, read signed t = .ok n →
    Decimal.isWritable n = true ∧ read signed (Decimal.text n) = .ok n

theorem comesBack_iff :
    ComesBack signed t ↔ ∀ n, read signed t = .ok n → n.natAbs < 10 ^ Decimal.maxDigits := by
  refine forall_congr' fun n => forall_congr' fun h => ?_
  rw [Decimal.isWritable_iff, and_iff_left_iff_imp]
  intro hn
  refine read_text ?_ (Decimal.isWritable_iff.mpr hn)
  cases signed with
  | true => exact .inl rfl
  | false => exact .inr (nonneg_of_read h)

/-- A time is so many units of so many seconds. -/
theorem exists_of_read (h : read signed t = .ok n) :
    ∃ m, Decimal.ofText? (split t).1 = .ok m ∧ n = m * (split t).2 := by
  unfold read at h
  simp only at h
  split at h
  · simp at h
  · split at h
    · next m hm => exact ⟨m, hm, (Except.ok.inj h).symm⟩
    · simp at h
    · simp at h

/-- A time in seconds always comes back. -/
theorem comesBack_of_seconds (hunit : (split t).2 = 1) : ComesBack signed t := by
  refine comesBack_iff.mpr fun n h => ?_
  obtain ⟨m, hm, rfl⟩ := exists_of_read h
  rw [hunit, Nat.cast_one, mul_one]
  exact Decimal.isWritable_iff.mp (Decimal.isWritable_of_ofText? hm)

theorem split_snd_lt (t : Text) : (split t).2 < 10 ^ 5 := by
  unfold split
  split
  · next seconds hunit =>
    obtain ⟨c, -, hc⟩ := Option.bind_eq_some_iff.mp hunit
    unfold unit? at hc
    split at hc <;> simp at hc <;> omega
  · exact Nat.one_lt_pow (by decide) (by decide)

/-- A time of not too many digits comes back, whatever its unit. -/
theorem comesBack_of_length_le (hlength : (split t).1.length + 5 ≤ Decimal.maxDigits) :
    ComesBack signed t := by
  refine comesBack_iff.mpr fun n h => ?_
  obtain ⟨m, hm, rfl⟩ := exists_of_read h
  have hm := Decimal.natAbs_lt_of_ofText? hm
  rw [Int.natAbs_mul, Int.natAbs_natCast]
  calc m.natAbs * (split t).2 < 10 ^ (split t).1.length * 10 ^ 5 :=
        Nat.mul_lt_mul_of_lt_of_le hm (Nat.le_of_lt (split_snd_lt t)) (by decide)
    _ = 10 ^ ((split t).1.length + 5) := (Nat.pow_add _ _ _).symm
    _ ≤ 10 ^ Decimal.maxDigits := Nat.pow_le_pow_right (by decide) hlength

/-- An integer with a unit. -/
theorem read_text_unit {c : Char} {seconds : Nat} (hc : unit? c = some seconds)
    (hsign : signed = true ∨ 0 ≤ n) (h : Decimal.isWritable n = true) :
    read signed (Decimal.text n ++ [c]) = .ok (n * seconds) := by
  have hsplit : split (Decimal.text n ++ [c]) = (Decimal.text n, seconds) := by
    simp [split, hc]
  have hhead : (Decimal.text n ++ [c]).head? = (Decimal.text n).head? := by
    rw [List.head?_append, Option.or_of_isSome]
    simpa using (Decimal.isWord_text n).ne_nil
  have hminus : ¬ ((Decimal.text n ++ [c]).head? = some '-' ∧ (!signed) = true) := by
    rintro ⟨hd, hs⟩
    rcases hsign with rfl | h₀
    · exact absurd hs (by decide)
    · exact head?_text h₀ (hhead ▸ hd)
  unfold read
  simp only [hsplit, if_neg hminus, Decimal.ofText?_text h]

end Duration

namespace TimeField

variable {t : Text}

/-- The line of a field can be written from the times that were read, and is
read as the same field. -/
def ComesBack (t : Text) : Prop :=
  ∀ f, ofLine read t = .ok f → f.isWritable = true ∧ ofLine read f.text = .ok f

theorem comesBack_iff : ComesBack t ↔
    ∀ f, ofLine read t = .ok f → ∀ n ∈ f.integers, n.natAbs < 10 ^ Decimal.maxDigits := by
  refine forall_congr' fun f => forall_congr' fun h => ?_
  have hwritable : f.isWritable = true ↔ ∀ n ∈ f.integers, n.natAbs < 10 ^ Decimal.maxDigits := by
    simp only [isWritable, List.all_eq_true, Decimal.isWritable_iff]
  rw [← hwritable, and_iff_left_iff_imp]
  intro hw
  have hwf : f.WellFormed := by
    unfold ofLine at h
    split at h
    · exact (wellFormed_of_read h).1
    · simp at h
  have hsplit : split? f.text = some (f.letter, f.value) :=
    split?_eq_some_iff.mpr ⟨rfl, by cases f <;> simp [letter]⟩
  rw [ofLine, hsplit]
  exact read_value hwf hw

end TimeField

namespace Duration

/-- A time comes back from its seconds, and a field of a time section from its
times, if no number of seconds is too long to be written.  None is that is
counted in seconds or five digits short of the limit. -/
theorem times_comeBack_iff (signed : Bool) (t : Text) :
    (ComesBack signed t ↔ ∀ n, read signed t = .ok n → n.natAbs < 10 ^ Decimal.maxDigits)
      ∧ (TimeField.ComesBack t ↔ ∀ f, ofLine TimeField.read t = .ok f →
        ∀ n ∈ f.integers, n.natAbs < 10 ^ Decimal.maxDigits)
      ∧ ((split t).2 = 1 ∨ (split t).1.length + 5 ≤ Decimal.maxDigits → ComesBack signed t) := by
  refine ⟨comesBack_iff, TimeField.comesBack_iff, ?_⟩
  rintro (hunit | hlength)
  · exact comesBack_of_seconds hunit
  · exact comesBack_of_length_le hlength

/-- So many days that their seconds cannot be written do not come back, and
neither does the line of a time that begins with them. -/
theorem not_comesBack_days (hn : 0 ≤ n) (hw : Decimal.isWritable n = true)
    (hdays : ¬ Decimal.isWritable (n * (86400 : Nat)) = true) :
    ¬ ComesBack false (Decimal.text n ++ ['d'])
      ∧ ¬ TimeField.ComesBack (Field.line 't' (unwords [Decimal.text n ++ ['d'], ['0']])) := by
  have hread : read false (Decimal.text n ++ ['d']) = .ok (n * (86400 : Nat)) :=
    read_text_unit rfl (.inr hn) hw
  refine ⟨fun h => hdays (h _ hread).1, fun h => ?_⟩
  have hword : IsWord AnyChar (Decimal.text n ++ ['d']) := by
    refine isWord_anyChar.mpr ⟨by simp, ?_⟩
    rw [List.mem_append, not_or]
    exact ⟨(Decimal.isWord_text n).blank_not_mem, by decide⟩
  have hwords : exactly 2 (unwords [Decimal.text n ++ ['d'], ['0']])
      = .ok [Decimal.text n ++ ['d'], ['0']] :=
    exactly_unwords rfl (by simp) (by simpa using ⟨hword, isWord_anyChar.mpr (by decide)⟩)
  have hstart : TimeField.seconds 't' false (Decimal.text n ++ ['d']) = .ok (n * (86400 : Nat)) :=
    mapError_eq_ok.mpr hread
  have hstop : TimeField.seconds 't' false ['0'] = .ok 0 := rfl
  have hfield : ofLine TimeField.read (Field.line 't' (unwords [Decimal.text n ++ ['d'], ['0']]))
      = .ok (.active ⟨n * (86400 : Nat), 0⟩) := by
    show TimeField.active <$> TimeField.readActive _ = _
    rw [TimeField.readActive, hwords]
    simp only [ok_bind, hstart, hstop, pure_eq, map_ok]
  have hwritable := (h _ hfield).1
  rw [TimeField.isWritable, List.all_eq_true] at hwritable
  exact hdays (hwritable _ List.mem_cons_self)

/-- The longest power of ten that is read does not come back if it counts
days. -/
theorem not_times_comeBack_days :
    ¬ ComesBack false (Decimal.text (10 ^ 4299) ++ ['d'])
      ∧ ¬ TimeField.ComesBack
        (Field.line 't' (unwords [Decimal.text (10 ^ 4299) ++ ['d'], ['0']])) := by
  have hpow : ∀ k, k < Decimal.maxDigits → Decimal.isWritable (10 ^ k) = true := fun k hk => by
    rw [Decimal.isWritable_iff, Int.natAbs_pow]
    -- Neither power is to be computed.
    generalize Decimal.maxDigits = m at hk ⊢
    exact Nat.pow_lt_pow_right (by decide) hk
  have hdays : ∀ k, Decimal.maxDigits = k + 1 →
      ¬ Decimal.isWritable (10 ^ k * (86400 : Nat)) = true := fun k hk => by
    rw [Decimal.isWritable_iff, Int.natAbs_mul, Int.natAbs_pow, Int.natAbs_natCast, Nat.not_lt, hk,
      pow_succ]
    exact Nat.mul_le_mul_left _ (by decide)
  exact not_comesBack_days (Int.pow_nonneg (by decide)) (hpow 4299 (by decide)) (hdays 4299 rfl)

end Duration

end OfferAnswer
