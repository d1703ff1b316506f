/-
OfferAnswer/Proofs/Field/Session.lean

The fields of a session, written and read again.
-/
import OfferAnswer.Field.Session
import OfferAnswer.Proofs.Field.Basic

namespace OfferAnswer

open Text OfferAnswer.Field Outcome

variable {p : Char → Prop} {raw : Text}

/-! ### Origins -/

namespace Origin

variable {o : Origin}

structure WellFormed (p : Char → Prop) (o : Origin) : Prop where
  /-- A hyphen would be read as no user. -/
  user : ∀ u ∈ o.user, IsWord p u ∧ u ≠ ['-']
  id : Decimal.Fits (.upTo maxNumber) o.id
  version : Decimal.Fits (.upTo maxNumber) o.version
  address : IsWord p o.address

/-- The words as written. -/
def textWords (o : Origin) : List Text :=
  [o.user.getD ['-'], Decimal.text o.id, Decimal.text o.version, Vocabulary.spelling o.network,
    Vocabulary.spelling o.family, o.address]

theorem readUser_getD (h : ∀ u ∈ o.user, u ≠ ['-']) : readUser (o.user.getD ['-']) = o.user := by
  rcases hu : o.user with - | u
  · rfl
  · simp [readUser, h u hu]

theorem wellFormed_of_read (hraw : Over p raw) (h : read raw = .ok o) : o.WellFormed p := by
  obtain ⟨ws, hws, h⟩ := bind_eq_ok.mp h
  have hwords := isWord_of_exactly hraw hws
  split at h
  · next user id version network family address =>
    simp only [bind_eq_ok] at h
    obtain ⟨i, hi, v, hv, n, -, f, -, h⟩ := h
    obtain rfl := pure_eq_ok.mp h
    refine ⟨fun u hu => ?_, fits_of_integer hi, fits_of_integer hv, hwords address (by simp)⟩
    have hu : (if user = ['-'] then none else some user) = some u := hu
    split at hu
    · simp at hu
    · next hne =>
      obtain rfl := Option.some.inj hu
      exact ⟨hwords user (by simp), hne⟩
  · simp [throw_ne_ok] at h

theorem isWord_of_mem [Alphabet p] (h : o.WellFormed p) : ∀ w ∈ o.textWords, IsWord p w := by
  have huser : IsWord p (o.user.getD ['-']) := by
    rcases hu : o.user with - | u
    · exact (isPlainWord_iff.mp (by decide : isPlainWord ['-'] = true)).1.of_plain
    · exact (h.user u hu).1
  simpa [textWords] using ⟨huser, (Decimal.isWord_text o.id).of_plain,
    (Decimal.isWord_text o.version).of_plain, (Vocabulary.isWord_spelling o.network).of_plain,
    (Vocabulary.isWord_spelling o.family).of_plain, h.address⟩

theorem read_text [Alphabet p] (h : o.WellFormed p) : read o.text = .ok o := by
  have hwords : exactly 6 o.text = .ok o.textWords :=
    exactly_unwords rfl (by simp) (isWord_of_mem h)
  rw [read, hwords]
  simp [textWords, integer_text h.id, integer_text h.version,
    readUser_getD fun u hu => (h.user u hu).2]

theorem over_text [Alphabet p] (h : o.WellFormed p) : Over p o.text :=
  over_unwords.mpr fun w hw => (isWord_of_mem h w hw).chars

end Origin

/-! ### Fields -/

namespace SessionField

variable {f : SessionField} {c : Char}

def WellFormed (p : Char → Prop) : SessionField → Prop
  | version v => v = ['0']
  | origin o => o.WellFormed p
  | name n => ∀ t ∈ n, (t ≠ [] ∧ t ≠ ['-'] ∧ t ≠ [' ']) ∧ Over p t
  | information t | uri t | email t | phone t => Over p t
  | connection c => c.WellFormed p
  | bandwidth b => b.WellFormed p
  | key k => k.WellFormed p
  | attr a => a.WellFormed p

theorem wellFormed_of_readName {n : Option Text} (hraw : Over p raw)
    (h : readName raw = .ok n) : (name n).WellFormed p := by
  unfold readName at h
  split at h
  · obtain rfl := Except.ok.inj h
    rintro t ⟨⟩
  · next hdash =>
    split at h
    · simp at h
    · next hne =>
      obtain rfl := Except.ok.inj h
      rw [not_or] at hdash
      rintro t ⟨⟩
      exact ⟨⟨hne, hdash⟩, hraw⟩

theorem readName_getD {n : Option Text} (h : (name n).WellFormed p) :
    readName (n.getD ['-']) = .ok n := by
  cases n with
  | none => rfl
  | some t =>
    obtain ⟨⟨hne, hdash, hblank⟩, -⟩ := h t rfl
    simp [readName, hne, hdash, hblank]

/-- A field that was read is well-formed, and has the letter of its line. -/
theorem wellFormed_of_read [Alphabet p] (hraw : Over p raw) (h : read c raw = .ok f) :
    f.WellFormed p ∧ f.letter = c := by
  unfold read at h
  split at h
  · -- v: the one version there is
    obtain ⟨v, hv, rfl⟩ := map_eq_ok.mp h
    unfold readVersion at hv
    split at hv
    · next hzero => exact ⟨(Except.ok.inj hv).symm.trans hzero, rfl⟩
    · simp at hv
  · -- o
    obtain ⟨o, ho, rfl⟩ := map_eq_ok.mp h
    exact ⟨Origin.wellFormed_of_read hraw ho, rfl⟩
  · -- s
    obtain ⟨n, hn, rfl⟩ := map_eq_ok.mp h
    exact ⟨wellFormed_of_readName hraw hn, rfl⟩
  · -- i, u, e and p: any text will do
    obtain rfl := Except.ok.inj h
    exact ⟨hraw, rfl⟩
  · obtain rfl := Except.ok.inj h
    exact ⟨hraw, rfl⟩
  · obtain rfl := Except.ok.inj h
    exact ⟨hraw, rfl⟩
  · obtain rfl := Except.ok.inj h
    exact ⟨hraw, rfl⟩
  · -- c
    obtain ⟨m, hm, rfl⟩ := map_eq_ok.mp h
    exact ⟨Connection.wellFormed_of_read hraw hm, rfl⟩
  · -- b
    obtain ⟨b, hb, rfl⟩ := map_eq_ok.mp h
    exact ⟨Bandwidth.wellFormed_of_read hraw hb, rfl⟩
  · -- k: never refused
    obtain rfl := Except.ok.inj h
    exact ⟨EncryptionKey.wellFormed_ofText hraw, rfl⟩
  · -- a
    obtain ⟨a, ha, rfl⟩ := map_eq_ok.mp h
    exact ⟨Attribute.wellFormed_of_ofText hraw (mapError_eq_ok.mp ha), rfl⟩
  · simp at h

theorem read_value [Alphabet p] (h : f.WellFormed p) : read f.letter f.value = .ok f := by
  cases f with
  | version v => exact map_eq_ok.mpr ⟨v, if_pos h, rfl⟩
  | origin o => exact map_eq_ok.mpr ⟨o, o.read_text h, rfl⟩
  | name n => exact map_eq_ok.mpr ⟨n, readName_getD h, rfl⟩
  | information t => rfl
  | uri t => rfl
  | email t => rfl
  | phone t => rfl
  | connection c => exact map_eq_ok.mpr ⟨c, c.read_text h, rfl⟩
  | bandwidth b => exact map_eq_ok.mpr ⟨b, b.read_text h, rfl⟩
  | key k => exact congrArg (Except.ok ∘ key) (k.ofText_text h)
  | attr a => exact map_eq_ok.mpr ⟨a, mapError_eq_ok.mpr (a.ofText_text h), rfl⟩

theorem over_value [Alphabet p] (h : f.WellFormed p) : Over p f.value := by
  cases f with
  | version v =>
    obtain rfl : v = ['0'] := h
    exact Over.of_plain (by decide)
  | origin o => exact o.over_text h
  | name n =>
    cases n with
    | none => exact Over.of_plain (by decide)
    | some t => exact (h t rfl).2
  | information t => exact h
  | uri t => exact h
  | email t => exact h
  | phone t => exact h
  | connection c => exact c.over_text h
  | bandwidth b => exact b.over_text h
  | key k => exact h.chars
  | attr a => exact a.over_text h

end SessionField

end OfferAnswer
