/-
OfferAnswer/Proofs/Field/Time.lean

The fields of a time section, written and read again.

A unit can make a time longer than the integers that are read, so a field that
was read need not be writable.  One that is writable is read from its own text.
-/
import OfferAnswer.Field.Time
import OfferAnswer.Proofs.Field.Basic

namespace OfferAnswer

open Text OfferAnswer.Field Outcome

variable {p : Char → Prop} {raw t : Text} {n : Int}

/-! ### Times -/

theorem Decimal.nonneg_of_ofText? (hsign : t.head? ≠ some '-') (h : ofText? t = .ok n) :
    0 ≤ n := by
  have hsplit : splitSign t = (false, t) := by
    unfold splitSign
    split
    · exact absurd rfl hsign
    · rfl
  obtain ⟨negative, d, hs, -, -, hn⟩ := exists_of_ofText? h
  obtain ⟨rfl, -⟩ := Prod.mk.inj (hsplit.symm.trans hs)
  rw [hn, if_neg Bool.false_ne_true]
  exact Int.natCast_nonneg _

namespace Duration

theorem head?_split (h : (split t).1.head? = some '-') : t.head? = some '-' := by
  unfold split at h
  split at h
  · rw [List.head?_dropLast] at h
    split at h
    · exact h
    · simp at h
  · exact h

/-- A time that is not signed is not negative. -/
theorem nonneg_of_read (h : read false t = .ok n) : 0 ≤ n := by
  unfold read at h
  simp only [Bool.not_false, and_true] at h
  split at h
  · simp at h
  · next hsign =>
    split at h
    · next m hm =>
      obtain rfl := Except.ok.inj h
      have hm₀ : 0 ≤ m := Decimal.nonneg_of_ofText? (fun hs => hsign (head?_split hs)) hm
      exact Int.mul_nonneg hm₀ (Int.natCast_nonneg _)
    · simp at h
    · simp at h

/-- An integer ends in no unit. -/
theorem split_text (n : Int) : split (Decimal.text n) = (Decimal.text n, 1) := by
  -- The last character is a digit or a lone minus sign, and neither is a unit.
  have hunit : (Decimal.text n).getLast?.bind unit? = none := by
    rw [Option.bind_eq_none_iff]
    intro c hc
    rcases Decimal.mem_text (List.mem_of_getLast? hc) with rfl | hd
    · rfl
    · unfold unit?
      split
      · exact absurd hd (by decide)
      · exact absurd hd (by decide)
      · exact absurd hd (by decide)
      · exact absurd hd (by decide)
      · rfl
  simp [split, hunit]

theorem head?_text (h : 0 ≤ n) : (Decimal.text n).head? ≠ some '-' := by
  rw [Decimal.text, if_neg (Int.not_lt.mpr h)]
  intro hd
  have := Decimal.isDigit_of_mem_toDigits (List.mem_of_mem_head? hd)
  exact absurd this (by decide)

theorem read_text {signed : Bool} (hsign : signed = true ∨ 0 ≤ n)
    (h : Decimal.isWritable n = true) : read signed (Decimal.text n) = .ok n := by
  have hminus : ¬ ((Decimal.text n).head? = some '-' ∧ (!signed) = true) := by
    rintro ⟨hd, hs⟩
    rcases hsign with rfl | h₀
    · exact absurd hs (by decide)
    · exact head?_text h₀ hd
  unfold read
  simp only [split_text, if_neg hminus, Decimal.ofText?_text h]
  simp

end Duration

namespace TimeField

variable {f : TimeField} {c : Char} {signed : Bool} {rs : List Adjustment}

theorem nonneg_of_seconds (h : seconds c false t = .ok n) : 0 ≤ n :=
  Duration.nonneg_of_read (mapError_eq_ok.mp h)

theorem seconds_text (hsign : signed = true ∨ 0 ≤ n) (h : Decimal.isWritable n = true) :
    seconds c signed (Decimal.text n) = .ok n :=
  mapError_eq_ok.mpr (Duration.read_text hsign h)

/-! ### Fields -/

/-- Only the offsets of adjustments are signed, and lists of times are not
empty. -/
def WellFormed : TimeField → Prop
  | active a => 0 ≤ a.start ∧ 0 ≤ a.stop
  | repetition r => 0 ≤ r.interval ∧ 0 ≤ r.duration ∧ r.offsets ≠ [] ∧ ∀ n ∈ r.offsets, 0 ≤ n
  | zone rs => rs ≠ [] ∧ ∀ r ∈ rs, 0 ≤ r.time

theorem nonneg_of_readAdjustments {ws : List Text} (h : readAdjustments raw ws = .ok rs) :
    (rs = [] → ws = []) ∧ ∀ r ∈ rs, 0 ≤ r.time := by
  induction ws using readAdjustments.induct generalizing rs with
  | case1 =>
    obtain rfl := Except.ok.inj h
    simp
  | case2 w => simp [readAdjustments] at h
  | case3 time offset rest ih =>
    simp only [readAdjustments, bind_eq_ok] at h
    obtain ⟨t, ht, o, -, others, hothers, h⟩ := h
    obtain rfl := pure_eq_ok.mp h
    refine ⟨by simp, ?_⟩
    rw [List.forall_mem_cons]
    exact ⟨nonneg_of_seconds ht, (ih hothers).2⟩

theorem nonneg_of_readActive {a : ActiveTime} (h : readActive raw = .ok a) :
    0 ≤ a.start ∧ 0 ≤ a.stop := by
  obtain ⟨ws, -, h⟩ := bind_eq_ok.mp h
  split at h
  · simp only [bind_eq_ok] at h
    obtain ⟨start, hstart, stop, hstop, h⟩ := h
    obtain rfl := pure_eq_ok.mp h
    exact ⟨nonneg_of_seconds hstart, nonneg_of_seconds hstop⟩
  · simp [throw_ne_ok] at h

theorem wellFormed_of_readRepetition {r : Repetition} (h : readRepetition raw = .ok r) :
    (repetition r).WellFormed := by
  unfold readRepetition at h
  simp only at h
  split at h
  · simp [throw_ne_ok, bind_eq_ok] at h
  · split at h
    · next interval duration offset offsets _ =>
      simp only [bind_eq_ok] at h
      obtain ⟨i, hi, d, hd, os, hos, h⟩ := h
      obtain rfl := pure_eq_ok.mp h
      refine ⟨nonneg_of_seconds hi, nonneg_of_seconds hd, ?_, fun n hn => ?_⟩
      · -- one word at least was read as an offset
        rintro rfl
        simpa using mapM_eq_ok.mp hos
      · obtain ⟨t, -, ht⟩ := mem_of_mapM hos n hn
        exact nonneg_of_seconds ht
    · simp [throw_ne_ok] at h

theorem wellFormed_of_readZone (h : readZone raw = .ok rs) : (zone rs).WellFormed := by
  unfold readZone at h
  simp only at h
  split at h
  · simp at h
  · obtain ⟨hne, hnonneg⟩ := nonneg_of_readAdjustments h
    exact ⟨fun he => words_ne_nil raw (hne he), hnonneg⟩

/-- A field that was read is well-formed, and has the letter of its line. -/
theorem wellFormed_of_read (h : read c raw = .ok f) : f.WellFormed ∧ f.letter = c := by
  unfold read at h
  split at h
  · -- t
    obtain ⟨a, ha, rfl⟩ := map_eq_ok.mp h
    exact ⟨nonneg_of_readActive ha, rfl⟩
  · -- r
    obtain ⟨r, hr, rfl⟩ := map_eq_ok.mp h
    exact ⟨wellFormed_of_readRepetition hr, rfl⟩
  · -- z
    obtain ⟨rs, hrs, rfl⟩ := map_eq_ok.mp h
    exact ⟨wellFormed_of_readZone hrs, rfl⟩
  · simp at h

/-! ### Reading what was written -/

theorem isWord_of_mem {is : List Int} : ∀ w ∈ is.map Decimal.text, IsWord IsPlain w :=
  List.forall_mem_map.mpr fun n _ => Decimal.isWord_text n

theorem words_value (h : f.integers ≠ []) : words f.value = f.integers.map Decimal.text :=
  words_unwords (by simpa using h) fun w hw => (isWord_of_mem w hw).blank_not_mem

theorem readAdjustments_text (h : ∀ r ∈ rs, 0 ≤ r.time)
    (hw : ∀ r ∈ rs, Decimal.isWritable r.time = true ∧ Decimal.isWritable r.offset = true) :
    readAdjustments raw ((rs.flatMap fun r => [r.time, r.offset]).map Decimal.text) = .ok rs := by
  induction rs with
  | nil => rfl
  | cons r rs ih =>
    rw [List.forall_mem_cons] at h hw
    have htime : seconds 'z' false (Decimal.text r.time) = .ok r.time :=
      seconds_text (.inr h.1) hw.1.1
    have hoffset : seconds 'z' true (Decimal.text r.offset) = .ok r.offset :=
      seconds_text (.inl rfl) hw.1.2
    simp only [List.flatMap_cons, List.cons_append, List.nil_append, List.map_cons,
      readAdjustments, htime, hoffset, ok_bind, ih h.2 hw.2]
    rfl

theorem forall_integers (hw : f.isWritable = true) :
    ∀ n ∈ f.integers, Decimal.isWritable n = true :=
  List.all_eq_true.mp hw

theorem not_contains_nil (is : List Int) : ¬ (is.map Decimal.text).contains [] := by
  rw [List.contains_iff_mem]
  exact fun hm => (isWord_of_mem [] hm).ne_nil rfl

theorem readActive_value {a : ActiveTime} (h : (active a).WellFormed)
    (hw : (active a).isWritable = true) : readActive (active a).value = .ok a := by
  have hw := forall_integers hw
  have hwords : exactly 2 (active a).value = .ok [Decimal.text a.start, Decimal.text a.stop] :=
    exactly_unwords rfl (by simp [integers]) isWord_of_mem
  have hstart : seconds 't' false (Decimal.text a.start) = .ok a.start :=
    seconds_text (.inr h.1) (hw _ (by simp [integers]))
  have hstop : seconds 't' false (Decimal.text a.stop) = .ok a.stop :=
    seconds_text (.inr h.2) (hw _ (by simp [integers]))
  rw [readActive, hwords]
  simp [hstart, hstop]

theorem readRepetition_value {r : Repetition} (h : (repetition r).WellFormed)
    (hw : (repetition r).isWritable = true) :
    readRepetition (repetition r).value = .ok r := by
  obtain ⟨hinterval, hduration, hne, hoffsets⟩ := h
  have hw := forall_integers hw
  have hwords := words_value (f := repetition r) (by simp [integers])
  have h₁ : seconds 'r' false (Decimal.text r.interval) = .ok r.interval :=
    seconds_text (.inr hinterval) (hw _ (by simp [integers]))
  have h₂ : seconds 'r' false (Decimal.text r.duration) = .ok r.duration :=
    seconds_text (.inr hduration) (hw _ (by simp [integers]))
  have h₃ : (r.offsets.map Decimal.text).mapM (seconds 'r' false) = .ok r.offsets :=
    mapM_map fun n hn => seconds_text (.inr (hoffsets n hn)) (hw n (by simp [integers, hn]))
  -- The reader asks for a first offset by name.
  obtain ⟨offset, offsets, ho⟩ := List.exists_cons_of_ne_nil hne
  rw [ho, List.map_cons] at h₃
  unfold readRepetition
  simp only [hwords, if_neg (not_contains_nil _)]
  simp only [integers, ho, List.map_cons, h₁, h₂, h₃, ok_bind, pure_eq]
  rw [← ho]

theorem readZone_value (h : (zone rs).WellFormed) (hw : (zone rs).isWritable = true) :
    readZone (zone rs).value = .ok rs := by
  obtain ⟨hne, htimes⟩ := h
  have hw := forall_integers hw
  have hints : (zone rs).integers ≠ [] := by
    obtain ⟨r, rest, rfl⟩ := List.exists_cons_of_ne_nil hne
    simp [integers]
  have heven : ((zone rs).integers.map Decimal.text).length % 2 = 0 := by
    simp [integers, List.length_flatMap]
  have hpairs : ∀ r ∈ rs, Decimal.isWritable r.time = true
      ∧ Decimal.isWritable r.offset = true := fun r hr =>
    ⟨hw _ (List.mem_flatMap.mpr ⟨r, hr, by simp⟩),
      hw _ (List.mem_flatMap.mpr ⟨r, hr, by simp⟩)⟩
  unfold readZone
  simp only [words_value hints, heven, ne_eq, not_true_eq_false, false_or,
    if_neg (not_contains_nil _)]
  exact readAdjustments_text htimes hpairs

/-- A field is read from its own value, if it is short enough to be written. -/
theorem read_value (h : f.WellFormed) (hw : f.isWritable = true) :
    read f.letter f.value = .ok f := by
  cases f with
  | active a => exact map_eq_ok.mpr ⟨a, readActive_value h hw, rfl⟩
  | repetition r => exact map_eq_ok.mpr ⟨r, readRepetition_value h hw, rfl⟩
  | zone rs => exact map_eq_ok.mpr ⟨rs, readZone_value h hw, rfl⟩

theorem over_value [Alphabet p] (f : TimeField) : Over p f.value :=
  over_unwords.mpr fun w hw => (isWord_of_mem w hw).chars.of_plain

end TimeField

end OfferAnswer
