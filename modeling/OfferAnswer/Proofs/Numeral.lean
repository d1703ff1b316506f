/-
OfferAnswer/Proofs/Numeral.lean

Which tokens are integers, and which integer each of them is.

A numeral is a minus sign or none, and decimal digits after it.  What it stands
for is said by the places of its digits and not by the reader, which goes
through them from left to right; `ofDigits_digitText` says that both come to
the same.  From this follows what is read (`read_eq_ok_iff`) and, as exactly,
why a token is refused (`read_eq_error_iff`): it is no numeral, it has too many
digits, or its integer is out of bounds, on the lower side first.

Many numerals stand for one integer.  The one that is written has no zero in
front that could be left out, and no sign before a zero (`isCanonical_text`).
-/
import Mathlib.Data.Nat.Digits.Defs
import Mathlib.Data.Set.List
import OfferAnswer.Proofs.Canonical.Value

namespace OfferAnswer.Decimal

open Text Outcome

variable {b : Bounds} {n : Int} {t : Text} {ds : List (Fin 10)} {ν : Numeral} {fault : Fault}

/-! ### Numerals -/

/-- An integer as it may be spelled: a minus sign or none, and then digits, the
highest place first.  Zeros may lead. -/
structure Numeral where
  negative : Bool
  digits : List (Fin 10)
  ne_nil : digits ≠ []

/-- Digits as characters. -/
def digitText (ds : List (Fin 10)) : Text := ds.map fun d : Fin 10 => Nat.digitChar d

/-- The number that digits stand for, each by its place. -/
def placeValue (ds : List (Fin 10)) : Nat := Nat.ofDigits 10 (ds.map Fin.val).reverse

def Numeral.text (ν : Numeral) : Text :=
  if ν.negative then '-' :: digitText ν.digits else digitText ν.digits

def Numeral.value (ν : Numeral) : Int :=
  if ν.negative then -(placeValue ν.digits : Int) else placeValue ν.digits

/-! ### Digits -/

@[simp] theorem length_digitText (ds : List (Fin 10)) : (digitText ds).length = ds.length :=
  List.length_map _

theorem isDigits_digitText (h : ds ≠ []) : isDigits (digitText ds) = true := by
  refine isDigits_iff.mpr ⟨mt List.map_eq_nil_iff.mp h, fun c hc => ?_⟩
  obtain ⟨d, -, rfl⟩ := List.mem_map.mp hc
  simp [Nat.isDigit_digitChar, d.isLt]

/-- Digits read from left to right come to the sum of their places. -/
theorem ofDigits_digitText (ds : List (Fin 10)) : ofDigits (digitText ds) = placeValue ds := by
  induction ds with
  | nil => rfl
  | cons d ds ih =>
    have hfirst : ofDigits (digitText (d :: ds)) = Nat.ofDigitChars 10 (digitText ds) d := by
      rw [ofDigits, digitText, List.map_cons,
        Nat.ofDigitChars_cons_digitChar_of_lt_ten d.isLt, Nat.mul_zero, Nat.zero_add, digitText]
    have hplaces : placeValue (d :: ds) = placeValue ds + 10 ^ ds.length * d := by
      rw [placeValue, List.map_cons, Nat.ofDigits_reverse_cons, List.length_map, placeValue]
    -- The reader carries the first digit along, and its place grows with each one read.
    calc ofDigits (digitText (d :: ds))
        = 10 ^ ds.length * d + ofDigits (digitText ds) := by
          rw [hfirst, Nat.ofDigitChars_eq_ofDigitChars_zero, length_digitText, ofDigits]
      _ = placeValue (d :: ds) := by rw [ih, hplaces, Nat.add_comm]

/-- Characters between zero and nine are the digits of a numeral. -/
theorem exists_digitText (h : isDigits t = true) : ∃ ds, ds ≠ [] ∧ digitText ds = t := by
  obtain ⟨hne, hdigit⟩ := isDigits_iff.mp h
  have hrange : t ∈ Set.range (List.map fun d : Fin 10 => Nat.digitChar d) := by
    rw [Set.range_list_map]
    intro c hc
    obtain ⟨hlt, hchar⟩ := digitChar_of_isDigit (hdigit c hc)
    exact ⟨⟨c.toNat - 48, hlt⟩, hchar⟩
  obtain ⟨ds, rfl⟩ := hrange
  exact ⟨ds, fun h => hne (by rw [h]; rfl), rfl⟩

/-! ### Tokens -/

theorem splitSign_text (ν : Numeral) : splitSign ν.text = (ν.negative, digitText ν.digits) := by
  obtain ⟨negative, ds, hne⟩ := ν
  cases negative with
  | true => rfl
  | false => exact splitSign_of_isDigits (isDigits_digitText hne)

/-- A token is a numeral if there are digits after its sign, and digits only. -/
theorem exists_text_eq_iff : (∃ ν : Numeral, ν.text = t) ↔ isDigits (splitSign t).2 = true := by
  constructor
  · rintro ⟨ν, rfl⟩
    rw [splitSign_text]
    exact isDigits_digitText ν.ne_nil
  · intro h
    obtain ⟨ds, hne, hds⟩ := exists_digitText h
    refine ⟨⟨(splitSign t).1, ds, hne⟩, ?_⟩
    rw [Numeral.text, hds]
    exact (eq_of_splitSign rfl).symm

/-- A numeral of not too many digits is read as its value. -/
theorem ofText?_numeral (h : ν.digits.length ≤ maxDigits) : ofText? ν.text = .ok ν.value := by
  have hlength : (digitText ν.digits).length ≤ maxDigits := by rwa [length_digitText]
  rw [ofText?_of_splitSign (splitSign_text ν) (isDigits_digitText ν.ne_nil) hlength,
    ofDigits_digitText, Numeral.value]

/-- Nothing else is read. -/
theorem exists_numeral_of_ofText? (h : ofText? t = .ok n) :
    ∃ ν : Numeral, ν.text = t ∧ ν.digits.length ≤ maxDigits ∧ ν.value = n := by
  obtain ⟨negative, d, hsplit, hd, hlength, rfl⟩ := exists_of_ofText? h
  obtain ⟨ν, rfl⟩ := exists_text_eq_iff.mpr (by rwa [hsplit])
  rw [splitSign_text] at hsplit
  obtain ⟨rfl, rfl⟩ := Prod.mk.inj hsplit
  refine ⟨ν, rfl, by rwa [length_digitText] at hlength, ?_⟩
  rw [ofDigits_digitText, Numeral.value]

theorem ofText?_overlong (h : maxDigits < ν.digits.length) :
    ofText? ν.text = .error (.tooLong ν.digits.length) := by
  simp [ofText?, splitSign_text, isDigits_digitText ν.ne_nil, h]

theorem ofText?_of_forall_ne (h : ∀ ν : Numeral, ν.text ≠ t) :
    ofText? t = .error (.malformed t) := by
  have hdigits : isDigits (splitSign t).2 = false := by
    rw [← Bool.not_eq_true, ← exists_text_eq_iff]
    exact fun ⟨ν, hν⟩ => h ν hν
  simp [ofText?, hdigits]

/-! ### Bounds -/

/-- An integer within bounds. -/
structure Bounds.Admits (b : Bounds) (n : Int) : Prop where
  least : ∀ l ∈ b.least, l ≤ n
  most : ∀ m ∈ b.most, n ≤ m

/-- The bound that an integer breaks; of two the lower one. -/
inductive Bounds.Excludes (b : Bounds) (n : Int) : Fault → Prop
  | below {l : Int} (hl : l ∈ b.least) (h : n < l) : b.Excludes n (.below n l)
  | above {m : Int} (hleast : ∀ l ∈ b.least, l ≤ n) (hm : m ∈ b.most) (h : m < n) :
      b.Excludes n (.above n m)

theorem check_eq_ok_iff_admits {m : Int} : b.check n = .ok m ↔ n = m ∧ b.Admits n :=
  check_eq_ok_iff.trans (and_congr_right fun _ => ⟨fun h => ⟨h.1, h.2⟩, fun h => ⟨h.1, h.2⟩⟩)

theorem checkMost_eq_error_iff {most : Option Int} :
    Bounds.check.checkMost n most = .error fault ↔ ∃ m ∈ most, m < n ∧ fault = .above n m := by
  cases most with
  | none => simp [Bounds.check.checkMost]
  | some m =>
    by_cases h : m < n <;> simp [Bounds.check.checkMost, h, eq_comm]

theorem check_eq_error_iff : b.check n = .error fault ↔ b.Excludes n fault := by
  obtain ⟨least, most⟩ := b
  constructor
  · intro h
    cases least with
    | none =>
      obtain ⟨m, hm, hlt, rfl⟩ := checkMost_eq_error_iff.mp h
      exact .above nofun hm hlt
    | some l =>
      simp only [Bounds.check] at h
      split at h
      · next hlt =>
        obtain rfl := Except.error.inj h
        exact .below rfl hlt
      · next hle =>
        obtain ⟨m, hm, hlt, rfl⟩ := checkMost_eq_error_iff.mp h
        exact .above (fun k hk => Option.some.inj hk ▸ Int.not_lt.mp hle) hm hlt
  · rintro (⟨hl, h⟩ | ⟨hleast, hm, h⟩)
    · obtain rfl := Option.mem_def.mp hl
      simp [Bounds.check, h]
    · cases least with
      | none => exact checkMost_eq_error_iff.mpr ⟨_, hm, h, rfl⟩
      | some l =>
        simp only [Bounds.check, if_neg (Int.not_lt.mpr (hleast l rfl))]
        exact checkMost_eq_error_iff.mpr ⟨_, hm, h, rfl⟩

/-! ### Reading -/

/-- A token of digits, not too many, for an integer within bounds. -/
def Bounds.Accepts (b : Bounds) (t : Text) (n : Int) : Prop :=
  ∃ ν : Numeral, ν.text = t ∧ ν.digits.length ≤ maxDigits ∧ ν.value = n ∧ b.Admits n

/-- Why a token is refused. -/
inductive Bounds.Refuses (b : Bounds) : Text → Fault → Prop
  | malformed {t : Text} (h : ∀ ν : Numeral, ν.text ≠ t) : b.Refuses t (.malformed t)
  | tooLong {ν : Numeral} (h : maxDigits < ν.digits.length) :
      b.Refuses ν.text (.tooLong ν.digits.length)
  | excluded {ν : Numeral} {fault : Fault} (hlength : ν.digits.length ≤ maxDigits)
      (h : b.Excludes ν.value fault) : b.Refuses ν.text fault

theorem read_numeral (h : ν.digits.length ≤ maxDigits) : read b ν.text = b.check ν.value := by
  rw [read, ofText?_numeral h, ok_bind]

theorem read_eq_ok_iff : read b t = .ok n ↔ b.Accepts t n := by
  constructor
  · intro h
    obtain ⟨m, hm, hcheck⟩ := bind_eq_ok.mp h
    obtain ⟨rfl, hadmits⟩ := check_eq_ok_iff_admits.mp hcheck
    obtain ⟨ν, rfl, hlength, rfl⟩ := exists_numeral_of_ofText? hm
    exact ⟨ν, rfl, hlength, rfl, hadmits⟩
  · rintro ⟨ν, rfl, hlength, rfl, hadmits⟩
    rw [read_numeral hlength]
    exact check_eq_ok_iff_admits.mpr ⟨rfl, hadmits⟩

theorem refuses_of_read (h : read b t = .error fault) : b.Refuses t fault := by
  -- The reader asks for the form, the length and the bounds in this order.
  by_cases hν : ∃ ν : Numeral, ν.text = t
  · obtain ⟨ν, rfl⟩ := hν
    rcases Nat.lt_or_ge maxDigits ν.digits.length with hlong | hlength
    · rw [read, ofText?_overlong hlong, error_bind] at h
      obtain rfl := Except.error.inj h
      exact .tooLong hlong
    · rw [read_numeral hlength] at h
      exact .excluded hlength (check_eq_error_iff.mp h)
  · have hne : ∀ ν : Numeral, ν.text ≠ t := fun ν he => hν ⟨ν, he⟩
    rw [read, ofText?_of_forall_ne hne, error_bind] at h
    obtain rfl := Except.error.inj h
    exact .malformed hne

theorem read_eq_error_iff : read b t = .error fault ↔ b.Refuses t fault := by
  refine ⟨refuses_of_read, ?_⟩
  rintro (h | h | ⟨hlength, h⟩)
  · rw [read, ofText?_of_forall_ne h, error_bind]
  · rw [read, ofText?_overlong h, error_bind]
  · rw [read_numeral hlength]
    exact check_eq_error_iff.mpr h

/-! ### Writing -/

/-- A zero leads, after the sign if there is one, though more characters follow. -/
def HasSuperfluousZero (t : Text) : Prop :=
  ∃ rest, rest ≠ [] ∧ (t = '0' :: rest ∨ t = '-' :: '0' :: rest)

theorem isCanonical_iff : isCanonical t = true ↔ ¬ HasSuperfluousZero t ∧ t ≠ ['-', '0'] := by
  unfold isCanonical splitSign HasSuperfluousZero
  split
  · next d =>
    rcases d with - | ⟨c, rest⟩
    · simp
    · by_cases hc : c = '0' <;> simp [hc]
  · next hsign =>
    rcases t with - | ⟨c, rest⟩
    · simp
    · have hc : c ≠ '-' := fun hc => hsign rest (by rw [hc])
      by_cases hzero : c = '0' <;> simp [hc, hzero]

/-- Digits that are written begin with a zero for the number zero only. -/
theorem toDigits_eq_of_head? {m : Nat} (h : (Nat.toDigits 10 m).head? = some '0') :
    Nat.toDigits 10 m = ['0'] := by
  obtain ⟨rest, hrest⟩ := List.head?_eq_some_iff.mp h
  rcases eq_or_ne rest [] with rfl | hne
  · exact hrest
  · -- The rest would be enough to write the number, which is written with one more.
    have hdigits : isDigits rest = true := by
      have hall := (isDigits_iff.mp (isDigits_toDigits m)).2
      rw [hrest, List.forall_mem_cons] at hall
      exact isDigits_iff.mpr ⟨hne, hall.2⟩
    have hvalue : ofDigits rest = m := by
      rw [← ofDigits_toDigits m, hrest]
      rfl
    have hshort := length_toDigits_ofDigits hdigits
    rw [hvalue, hrest, List.length_cons] at hshort
    omega

theorem isCanonical_text (n : Int) : isCanonical (text n) = true := by
  have hhead : (Nat.toDigits 10 n.natAbs).head? ≠ some '0' ∨ Nat.toDigits 10 n.natAbs = ['0'] :=
    or_iff_not_imp_left.mpr fun h => toDigits_eq_of_head? (not_not.mp h)
  by_cases hneg : n < 0
  · -- A negative number is not zero, so no zero stands alone after the sign.
    have hpos : Nat.toDigits 10 n.natAbs ≠ ['0'] := by
      intro hzero
      have hread := congrArg ofDigits hzero
      rw [ofDigits_toDigits] at hread
      have : n.natAbs = 0 := hread
      omega
    simp [isCanonical, text, hneg, splitSign, hhead.resolve_right hpos, hpos]
  · -- The digits of any other are the whole text, and none of them is a sign.
    have hsplit := splitSign_of_isDigits (isDigits_toDigits n.natAbs)
    have hsign : Nat.toDigits 10 n.natAbs ≠ ['-', '0'] := by
      intro h
      exact absurd (h ▸ isDigits_toDigits n.natAbs) (by decide)
    simpa [isCanonical, text, hneg, hsplit, hsign] using hhead

/-- An integer is written as it was read if it was read from canonical text. -/
theorem text_eq_iff_of_read (h : read b t = .ok n) : text n = t ↔ isCanonical t = true := by
  constructor
  · rintro rfl
    exact isCanonical_text n
  · exact text_of_read h

/-- Reading and writing integers: a token is read if it is a numeral of not too
many digits whose value is within bounds, as that value, and refused otherwise.
An integer within bounds is read from its own text, if that is not too long.
What was read can be written, and is written as the same token if this has no
zero to leave out and no sign before a zero. -/
theorem reads_numerals_writes_canonical (b : Bounds) :
    (∀ t n, read b t = .ok n ↔ b.Accepts t n)
      ∧ (∀ t, (∀ n, ¬ b.Accepts t n) → ∃ fault, read b t = .error fault ∧ b.Refuses t fault)
      ∧ (∀ n, b.Admits n → n.natAbs < 10 ^ maxDigits →
          isWritable n = true ∧ read b (text n) = .ok n)
      ∧ ∀ t n, read b t = .ok n →
          isWritable n = true ∧ (text n = t ↔ ¬ HasSuperfluousZero t ∧ t ≠ ['-', '0']) := by
  refine ⟨fun t n => read_eq_ok_iff, fun t h => ?_, fun n hadmits hn => ?_, fun t n h => ?_⟩
  · cases hread : read b t with
    | ok n => exact absurd (read_eq_ok_iff.mp hread) (h n)
    | error fault => exact ⟨fault, rfl, read_eq_error_iff.mp hread⟩
  · have hwritable : isWritable n = true := isWritable_iff.mpr hn
    exact ⟨hwritable, read_text ⟨hadmits.least, hadmits.most, hwritable⟩⟩
  · exact ⟨(fits_of_read h).writable, (text_eq_iff_of_read h).trans isCanonical_iff⟩

/-- A port with a zero in front, and one with a sign that none has. -/
theorem reads_port_writes_canonical :
    ((Bounds.upTo 65535).Admits 80 ∧ (80 : Int).natAbs < 10 ^ maxDigits
        ∧ isWritable 80 = true ∧ read (.upTo 65535) (text 80) = .ok 80)
      ∧ (read (.upTo 65535) "080".toList = .ok 80 ∧ text 80 ≠ "080".toList)
      ∧ (∀ n, ¬ (Bounds.upTo 65535).Accepts "+80".toList n)
      ∧ ∃ fault, read (.upTo 65535) "+80".toList = .error fault
          ∧ (Bounds.upTo 65535).Refuses "+80".toList fault := by
  obtain ⟨haccepts, hrefuses, hwritten, hcanonical⟩ :=
    reads_numerals_writes_canonical (.upTo 65535)
  have hfits : Fits (.upTo 65535) 80 := fits_upTo (by decide) (by decide) (by decide)
  have hadmits : (Bounds.upTo 65535).Admits 80 := ⟨hfits.least, hfits.most⟩
  have hshort : (80 : Int).natAbs < 10 ^ maxDigits := isWritable_iff.mp hfits.writable
  have hread : read (.upTo 65535) "080".toList = .ok 80 := by decide +kernel
  have hzero : HasSuperfluousZero "080".toList := ⟨"80".toList, by decide, .inl rfl⟩
  have hplus : read (.upTo 65535) "+80".toList = .error (.malformed "+80".toList) := by
    decide +kernel
  have hnone : ∀ n, ¬ (Bounds.upTo 65535).Accepts "+80".toList n := by
    intro n h
    rw [← haccepts, hplus] at h
    cases h
  refine ⟨⟨hadmits, hshort, hwritten 80 hadmits hshort⟩, ⟨hread, fun he => ?_⟩, hnone,
    hrefuses _ hnone⟩
  exact ((hcanonical _ _ hread).2.mp he).1 hzero

example : read .natural "-0".toList = .ok 0 := by decide +kernel
example : read .natural ['\u0661'] = .error (.malformed ['\u0661']) := by decide +kernel

end OfferAnswer.Decimal
