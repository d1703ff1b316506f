/-
OfferAnswer/Proofs/Field/Basic.lean

Fields that occur in more than one place, written and read again.
-/
import OfferAnswer.Field.Basic
import OfferAnswer.Proofs.Attribute.Basic

namespace OfferAnswer

open Text OfferAnswer.Field Outcome

variable {p : Char → Prop} {raw t : Text}

namespace Field

variable {ws : List Text} {n : Nat} {c : Char} {b : Decimal.Bounds} {i : Int}

/-! ### Words and integers -/

theorem isWord_of_exactly (hraw : Over p raw) (h : exactly n raw = .ok ws) :
    ∀ w ∈ ws, IsWord p w := by
  unfold exactly at h
  simp only at h
  split at h
  · simp at h
  · next hok =>
    obtain rfl := Except.ok.inj h
    rw [not_or, List.contains_iff_mem] at hok
    exact fun w hw => ⟨fun he => hok.2 (he ▸ hw), not_mem_of_mem_splitOn hw, hraw.of_mem_words hw⟩

theorem exactly_unwords (hn : ws.length = n) (hws : ws ≠ []) (h : ∀ w ∈ ws, IsWord p w) :
    exactly n (unwords ws) = .ok ws := by
  have hwords : words (unwords ws) = ws := words_unwords hws fun w hw => (h w hw).blank_not_mem
  have hne : [] ∉ ws := fun hm => (h [] hm).ne_nil rfl
  simp [exactly, hwords, hn, hne]

theorem fits_of_integer (h : integer c b t = .ok i) : Decimal.Fits b i :=
  Decimal.fits_of_read (mapError_eq_ok.mp h)

theorem integer_text (h : Decimal.Fits b i) : integer c b (Decimal.text i) = .ok i :=
  mapError_eq_ok.mpr (Decimal.read_text h)

@[simp] theorem word_spelling {κ : Type} [Vocabulary κ] (k : κ) :
    (word c (Vocabulary.spelling k) : Except Fault κ) = .ok k :=
  mapError_eq_ok.mpr (Vocabulary.ofText_spelling k)

end Field

/-! ### Connections -/

namespace Connection

variable {c : Connection}

def WellFormed (p : Char → Prop) (c : Connection) : Prop := IsWord p c.address

theorem wellFormed_of_read (hraw : Over p raw) (h : read raw = .ok c) : c.WellFormed p := by
  obtain ⟨ws, hws, h⟩ := bind_eq_ok.mp h
  have hwords := isWord_of_exactly hraw hws
  split at h
  · next network family address =>
    simp only [bind_eq_ok] at h
    obtain ⟨n, -, f, -, h⟩ := h
    obtain rfl := pure_eq_ok.mp h
    exact hwords address (by simp)
  · simp [throw_ne_ok] at h

theorem isWord_of_mem [Alphabet p] (h : c.WellFormed p) :
    ∀ w ∈ [Vocabulary.spelling c.network, Vocabulary.spelling c.family, c.address],
      IsWord p w := by
  simpa using ⟨(Vocabulary.isWord_spelling c.network).of_plain,
    (Vocabulary.isWord_spelling c.family).of_plain, h⟩

theorem read_text [Alphabet p] (h : c.WellFormed p) : read c.text = .ok c := by
  have hwords : exactly 3 c.text
      = .ok [Vocabulary.spelling c.network, Vocabulary.spelling c.family, c.address] :=
    exactly_unwords rfl (by simp) (isWord_of_mem h)
  rw [read, hwords]
  simp

theorem over_text [Alphabet p] (h : c.WellFormed p) : Over p c.text :=
  over_unwords.mpr fun w hw => (isWord_of_mem h w hw).chars

end Connection

/-! ### Bandwidths -/

namespace Bandwidth

variable {b : Bandwidth}

structure WellFormed (p : Char → Prop) (b : Bandwidth) : Prop where
  kind_canonical : b.kind.IsCanonical
  kind_ne_nil : b.kind.text ≠ []
  colon_not_mem_kind : ':' ∉ b.kind.text
  kind_over : Over p b.kind.text
  amount : Decimal.Fits .natural b.amount

theorem wellFormed_of_read [Alphabet p] (hraw : Over p raw) (h : read raw = .ok b) :
    b.WellFormed p := by
  unfold read at h
  split at h
  · simp at h
  · simp at h
  · next kind amount hne hcut =>
    obtain ⟨n, hn, h⟩ := bind_eq_ok.mp h
    obtain rfl := pure_eq_ok.mp h
    obtain ⟨rfl, hcolon⟩ := cut_eq_iff.mp hcut
    rw [over_withTail (Alphabet.plain _ (by decide))] at hraw
    exact ⟨Token.isCanonical_ofText kind, Token.ne_nil_text_ofText fun he => hne he,
      Token.colon_not_mem_text_ofText hcolon, Token.over_text_ofText hraw.1, fits_of_integer hn⟩

theorem read_text (h : b.WellFormed p) : read b.text = .ok b := by
  have hcut : cut ':' b.text = (b.kind.text, some (Decimal.text b.amount)) :=
    cut_append h.colon_not_mem_kind _
  unfold read
  rw [hcut]
  split
  · next he => exact absurd (congrArg Prod.fst he) h.kind_ne_nil
  · next he => simp at he
  · next he =>
    obtain ⟨rfl, hamount⟩ := Prod.mk.inj he
    obtain rfl := Option.some.inj hamount
    simp [integer_text h.amount, h.kind_canonical.eq]

theorem over_text [Alphabet p] (h : b.WellFormed p) : Over p b.text := by
  rw [text, over_append, over_cons]
  exact ⟨h.kind_over, Alphabet.plain _ (by decide), Decimal.over_text b.amount⟩

end Bandwidth

/-! ### Encryption keys -/

namespace EncryptionKey

variable {k : EncryptionKey}

structure WellFormed (p : Char → Prop) (k : EncryptionKey) : Prop where
  colon_not_mem_method : ':' ∉ k.method
  chars : Over p k.text

theorem text_eq (k : EncryptionKey) : k.text = withTail ':' k.method k.key := by
  unfold text Attribute.nameValueText
  cases k.key <;> simp

theorem wellFormed_ofText (hraw : Over p raw) : (ofText raw).WellFormed p := by
  obtain ⟨htail, hcolon⟩ := cut_eq_iff.mp (Prod.eta (cut ':' raw)).symm
  have htext : (ofText raw).text = raw := (text_eq (ofText raw)).trans htail
  exact ⟨hcolon, htext.symm ▸ hraw⟩

theorem ofText_text (h : k.WellFormed p) : ofText k.text = k := by
  have hcut : cut ':' k.text = (k.method, k.key) :=
    cut_eq_iff.mpr ⟨(text_eq k).symm, h.colon_not_mem_method⟩
  simp [ofText, hcut]

end EncryptionKey

end OfferAnswer
