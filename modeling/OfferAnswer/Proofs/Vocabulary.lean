/-
OfferAnswer/Proofs/Vocabulary.lean

Registered words and tokens, written and read again.

Registered spellings are plain words without a colon, whichever vocabulary
they are from (`PlainVocabulary`), so they can be written at any place of a
line.  A token that was read is spelled canonically: it is the token that its
own text stands for.
-/
import OfferAnswer.Attribute.Basic
import OfferAnswer.Proofs.Text

namespace OfferAnswer

open Text

/-- Whether a text is a plain word without a colon. -/
def Text.isPlainWord (t : Text) : Bool :=
  !t.isEmpty && t.all fun c => c != ' ' && c != ':' && decide (IsPlain c)

theorem Text.isPlainWord_iff {t : Text} :
    isPlainWord t = true ↔ IsWord IsPlain t ∧ ':' ∉ t := by
  simp only [isPlainWord, Bool.and_eq_true, Bool.not_eq_true', List.isEmpty_eq_false_iff,
    List.all_eq_true, bne_iff_ne, decide_eq_true_eq]
  constructor
  · rintro ⟨hne, h⟩
    exact ⟨⟨hne, fun hm => (h _ hm).1.1 rfl, fun c hc => (h c hc).2⟩, fun hm => (h _ hm).1.2 rfl⟩
  · rintro ⟨⟨hne, hblank, hover⟩, hcolon⟩
    exact ⟨hne, fun c hc => ⟨⟨fun he => hblank (he ▸ hc), fun he => hcolon (he ▸ hc)⟩, hover c hc⟩⟩

/-- A vocabulary whose spellings are plain words without a colon. -/
class PlainVocabulary (κ : Type) [Vocabulary κ] : Prop where
  isPlainWord : ∀ k ∈ Vocabulary.members (κ := κ), isPlainWord (Vocabulary.spelling k) = true

instance : PlainVocabulary Network := ⟨by decide⟩
instance : PlainVocabulary AddressFamily := ⟨by decide⟩
instance : PlainVocabulary BandwidthKind := ⟨by decide⟩
instance : PlainVocabulary MediaKind := ⟨by decide⟩
instance : PlainVocabulary Protocol := ⟨by decide⟩
instance : PlainVocabulary GroupMeaning := ⟨by decide⟩
instance : PlainVocabulary CandidateTransport := ⟨by decide⟩
instance : PlainVocabulary CandidateKind := ⟨by decide⟩
instance : PlainVocabulary IceOption := ⟨by decide⟩
instance : PlainVocabulary TcpRole := ⟨by decide⟩
instance : PlainVocabulary SetupRole := ⟨by decide⟩
instance : PlainVocabulary HashFunction := ⟨by decide⟩
instance : PlainVocabulary SourceGroupMeaning := ⟨by decide⟩
instance : PlainVocabulary ExtensionDirection := ⟨by decide⟩
instance : PlainVocabulary StreamDirection := ⟨by decide⟩
instance : PlainVocabulary Codec := ⟨by decide⟩
instance : PlainVocabulary Attribute.Kind := ⟨by decide⟩

namespace Vocabulary

variable {κ : Type} [Vocabulary κ] {k : κ} {t : Text}

theorem isWord_spelling [PlainVocabulary κ] (k : κ) : IsWord IsPlain (spelling k) :=
  (isPlainWord_iff.mp (PlainVocabulary.isPlainWord k (complete k))).1

theorem colon_not_mem_spelling [PlainVocabulary κ] (k : κ) : ':' ∉ spelling k :=
  (isPlainWord_iff.mp (PlainVocabulary.isPlainWord k (complete k))).2

theorem ofText_eq_ok_iff : ofText t = .ok k ↔ find? t = some k := by
  unfold ofText
  cases find? (κ := κ) t <;> simp

@[simp] theorem ofText_spelling (k : κ) : ofText (spelling k) = .ok k :=
  ofText_eq_ok_iff.mpr (find?_spelling k)

end Vocabulary

namespace Token

variable {κ : Type} [Vocabulary κ] {k : κ} {t : Text} {p : Char → Prop}

/-- Spelled canonically: the token that its own text stands for. -/
def IsCanonical (t : Token κ) : Prop := ofText t.text = t

theorem IsCanonical.eq {t : Token κ} (h : t.IsCanonical) : ofText t.text = t := h

@[simp] theorem ofText_spelling (k : κ) : ofText (Vocabulary.spelling k) = known k := by
  simp [ofText, Vocabulary.find?_spelling]

/-- A token differs from what it was read from in case at most. -/
theorem lower_text_ofText (t : Text) : lower (ofText t : Token κ).text = lower t := by
  unfold ofText
  split
  · next k hk => exact Vocabulary.lower_spelling_of_find? hk
  · rfl

theorem isCanonical_known (k : κ) : (known k).IsCanonical := ofText_spelling k

/-- A token that was read is spelled canonically. -/
theorem isCanonical_ofText (t : Text) : (ofText t : Token κ).IsCanonical := by
  rcases h : Vocabulary.find? (κ := κ) t with - | k
  · have hother : (ofText t : Token κ) = other t := by simp [ofText, h]
    rw [hother]
    exact hother
  · have hknown : (ofText t : Token κ) = known k := by simp [ofText, h]
    rw [hknown]
    exact isCanonical_known k

/-- Spelled canonically, a token equals a registered word only if it is that
word. -/
theorem IsCanonical.eq_known {t : Token κ} (h : t.IsCanonical) (hk : (t == known k) = true) :
    t = known k := by
  have hfind : Vocabulary.find? t.text = some k :=
    Vocabulary.find?_eq_some_iff.mpr (beq_iff.mp hk).symm
  rw [← h.eq, ofText, hfind]

/-- What holds of the text, and of every registered spelling, holds of the text
of the token. -/
theorem text_ofText_induction {P : Text → Prop} (hspelling : ∀ k : κ, P (Vocabulary.spelling k))
    (h : P t) : P (ofText t : Token κ).text := by
  unfold ofText
  split
  · exact hspelling _
  · exact h

theorem over_text_ofText [PlainVocabulary κ] [Alphabet p] (h : Over p t) :
    Over p (ofText t : Token κ).text :=
  text_ofText_induction (fun k => (Vocabulary.isWord_spelling k).chars.of_plain) h

theorem isWord_text_ofText [PlainVocabulary κ] [Alphabet p] (h : IsWord p t) :
    IsWord p (ofText t : Token κ).text :=
  text_ofText_induction (fun k => (Vocabulary.isWord_spelling k).of_plain) h

theorem colon_not_mem_text_ofText [PlainVocabulary κ] (h : ':' ∉ t) :
    ':' ∉ (ofText t : Token κ).text :=
  text_ofText_induction (P := fun t => ':' ∉ t) Vocabulary.colon_not_mem_spelling h

theorem ne_nil_text_ofText [PlainVocabulary κ] (h : t ≠ []) :
    (ofText t : Token κ).text ≠ [] :=
  text_ofText_induction (P := fun t => t ≠ []) (fun k => (Vocabulary.isWord_spelling k).ne_nil) h

end Token

/-- No codec is spelled with a slash. -/
theorem Codec.slash_not_mem_spelling (k : Codec) : '/' ∉ Vocabulary.spelling k := by
  cases k <;> decide

end OfferAnswer
