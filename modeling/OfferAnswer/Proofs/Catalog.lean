/-
OfferAnswer/Proofs/Catalog.lean

Lookup, equality, hashes and spelling of words agree in every vocabulary.

An open vocabulary has a word for every text (`Entry.Keeps`).  Words are
interchangeable exactly if their texts differ in case only, whether they are
registered, were looked up or were made as unregistered ones, and a word is
spelled as it was given unless it is registered.  A closed vocabulary has
registered words only (`Entry.Refuses`).  Both are shown once for all
vocabularies, and every entry of the catalog is of one kind or the other.
-/
import OfferAnswer.Proofs.Vocabulary
import OfferAnswer.Vocabulary.Catalog

namespace OfferAnswer

open Text

namespace Token

variable {κ : Type} [Vocabulary κ] {t u : Text}

/-- Tokens are equal if what they were read from differs in case only. -/
theorem beq_ofText_iff :
    ((ofText t : Token κ) == ofText u) = true ↔ lower t = lower u := by
  rw [beq_iff, lower_text_ofText, lower_text_ofText]

/-- A token is registered if it was read from a registered spelling in some
case. -/
theorem isKnown_ofText_iff :
    (ofText t : Token κ).isKnown = true ↔ ∃ k : κ, lower (Vocabulary.spelling k) = lower t := by
  simp only [← Vocabulary.find?_eq_some_iff, ofText]
  cases Vocabulary.find? (κ := κ) t <;> simp [isKnown]

/-- A token that is not registered is spelled as it was read. -/
theorem text_ofText_of_not_isKnown (h : (ofText t : Token κ).isKnown = false) :
    (ofText t : Token κ).text = t := by
  unfold ofText at h ⊢
  split at h
  · cases h
  · rfl

/-- A registered token has a registered spelling. -/
theorem text_ofText_of_isKnown (h : (ofText t : Token κ).isKnown = true) :
    ∃ k : κ, (ofText t : Token κ).text = Vocabulary.spelling k := by
  unfold ofText at h ⊢
  split at h
  · next k hk => exact ⟨k, rfl⟩
  · cases h

end Token

namespace Catalog

variable {w w' : Word} {e : Entry}

theorem Word.beq_iff : (w == w') = true ↔ lower w.text = lower w'.text := Text.sameLower_iff

theorem Word.hash_eq (h : lower w.text = lower w'.text) : hash w = hash w' := by
  show hash (String.ofList (lower w.text)) = hash (String.ofList (lower w'.text))
  rw [h]

namespace Entry

/-- A vocabulary that keeps every text as a word. -/
structure Keeps (e : Entry) (word : Text → Word) : Prop where
  /-- Every text has a word. -/
  total : ∀ t, e.word (.text t) = .ok (word t)
  /-- Words are equal exactly if the texts differ in case only. -/
  beq_iff : ∀ t u, (word t == word u) = true ↔ lower t = lower u
  /-- Then they have one hash. -/
  hash_eq : ∀ t u, lower t = lower u → hash (word t) = hash (word u)
  /-- A word is interchangeable with the unregistered one of the same text. -/
  unregistered : ∀ t, ∃ w, e.unregistered t = .ok w ∧ w.text = t ∧ w.isKnown = false
    ∧ (word t == w) = true ∧ hash (word t) = hash w
  /-- A word is registered if a registered spelling differs from the text in
  case at most. -/
  isKnown_iff : ∀ t, (word t).isKnown = true ↔ ∃ m ∈ e.words, lower m = lower t
  /-- A registered word is spelled as registered. -/
  text_of_isKnown : ∀ t, (word t).isKnown = true → (word t).text ∈ e.words
  /-- Any other is spelled as it was given. -/
  text_of_not_isKnown : ∀ t, (word t).isKnown = false → (word t).text = t
  /-- Looking a word up changes case at most. -/
  lower_text : ∀ t, lower (word t).text = lower t
  /-- A spelling that was looked up is looked up as itself. -/
  text_again : ∀ t, (word (word t).text).text = (word t).text

/-- A vocabulary that has registered words only. -/
structure Refuses (e : Entry) : Prop where
  /-- A text has the word whose spelling differs from it in case at most. -/
  word_eq_ok_iff : ∀ t w,
    e.word (.text t) = .ok w ↔ w.isKnown = true ∧ w.text ∈ e.words ∧ lower w.text = lower t
  /-- The lookup fails if there is no such spelling. -/
  fails_iff : ∀ t, (∃ fault, e.word (.text t) = .error fault) ↔ ∀ m ∈ e.words, lower m ≠ lower t

variable {κ : Type} [Vocabulary κ] {t m : Text}

theorem mem_words_iff : m ∈ (Vocabulary.members (κ := κ)).map Vocabulary.spelling ↔
    ∃ k : κ, Vocabulary.spelling k = m := by
  simp only [List.mem_map, Vocabulary.complete, true_and]

theorem extensible_keeps (κ : Type) [Vocabulary κ] : (extensible κ).Keeps fun t =>
    ⟨(Token.ofText t : Token κ).text, (Token.ofText t : Token κ).isKnown⟩ where
  total t := rfl
  beq_iff t u := Token.beq_ofText_iff (κ := κ)
  hash_eq t u h := by
    apply Word.hash_eq
    show lower (Token.ofText t : Token κ).text = lower (Token.ofText u : Token κ).text
    rw [Token.lower_text_ofText, Token.lower_text_ofText, h]
  unregistered t := by
    refine ⟨⟨t, false⟩, rfl, rfl, rfl, ?_, ?_⟩
    · exact Word.beq_iff.mpr (Token.lower_text_ofText t)
    · exact Word.hash_eq (Token.lower_text_ofText t)
  isKnown_iff t := by
    show (Token.ofText t : Token κ).isKnown = true ↔
      ∃ m ∈ (Vocabulary.members (κ := κ)).map Vocabulary.spelling, lower m = lower t
    rw [Token.isKnown_ofText_iff]
    simp only [mem_words_iff, exists_exists_eq_and]
  text_of_isKnown t h := by
    obtain ⟨k, hk⟩ := Token.text_ofText_of_isKnown h
    exact mem_words_iff.mpr ⟨k, hk.symm⟩
  text_of_not_isKnown t h := Token.text_ofText_of_not_isKnown h
  lower_text t := Token.lower_text_ofText t
  text_again t := congrArg Token.text (Token.isCanonical_ofText t).eq

/-- A closed vocabulary finds its words by their spellings in any case. -/
theorem word_closed_eq_ok_iff : (closed κ).word (.text t) = .ok w ↔
    ∃ k : κ, lower (Vocabulary.spelling k) = lower t ∧ w = ⟨Vocabulary.spelling k, true⟩ := by
  show (fun k : κ => (⟨Vocabulary.spelling k, true⟩ : Word)) <$> Vocabulary.ofText t = .ok w ↔ _
  simp only [← Vocabulary.find?_eq_some_iff, ← Vocabulary.ofText_eq_ok_iff]
  cases Vocabulary.ofText (κ := κ) t <;> simp [Functor.map, Except.map, eq_comm]

theorem closed_refuses (κ : Type) [Vocabulary κ] : (closed κ).Refuses where
  word_eq_ok_iff t w := by
    rw [word_closed_eq_ok_iff]
    constructor
    · rintro ⟨k, hk, rfl⟩
      exact ⟨rfl, mem_words_iff.mpr ⟨k, rfl⟩, hk⟩
    · rintro ⟨hknown, hmem, hlower⟩
      obtain ⟨k, hk⟩ := mem_words_iff.mp hmem
      refine ⟨k, by rw [hk, hlower], ?_⟩
      cases w
      rw [hk, ← hknown]
  fails_iff t := by
    constructor
    · rintro ⟨fault, hfault⟩ m hm hlower
      obtain ⟨k, rfl⟩ := mem_words_iff.mp hm
      rw [word_closed_eq_ok_iff.mpr ⟨k, hlower, rfl⟩] at hfault
      cases hfault
    · intro h
      cases hword : (closed κ).word (.text t) with
      | error fault => exact ⟨fault, rfl⟩
      | ok w =>
        obtain ⟨k, hk, -⟩ := word_closed_eq_ok_iff.mp hword
        exact absurd hk (h _ (mem_words_iff.mpr ⟨k, rfl⟩))

end Entry

/-- Every entry of the catalog is of one of the two kinds. -/
theorem eq_closed_or_eq_extensible (h : e ∈ all) :
    (∃ (κ : Type) (_ : Vocabulary κ), e = .closed κ)
      ∨ ∃ (κ : Type) (_ : Vocabulary κ), e = .extensible κ := by
  simp only [all, List.mem_cons, List.not_mem_nil, or_false] at h
  rcases h with rfl | rfl | rfl | rfl | rfl | rfl | rfl | rfl | rfl | rfl | rfl | rfl | rfl
    | rfl | rfl | rfl | rfl
  all_goals
    first
    | exact .inl ⟨_, _, rfl⟩
    | exact .inr ⟨_, _, rfl⟩

/-- Every open vocabulary of the catalog keeps all texts, and every closed one
refuses what is not registered. -/
theorem keeps_or_refuses (h : e ∈ all) :
    (e.isClosed = false → ∃ word, e.Keeps word) ∧ (e.isClosed = true → e.Refuses) := by
  obtain ⟨κ, _, rfl⟩ | ⟨κ, _, rfl⟩ := eq_closed_or_eq_extensible h
  · exact ⟨nofun, fun _ => Entry.closed_refuses κ⟩
  · exact ⟨fun _ => ⟨_, Entry.extensible_keeps κ⟩, nofun⟩

theorem keeps_codec_and_refuses_setupRole :
    (∃ word, (Entry.extensible Codec).Keeps word) ∧ (Entry.closed SetupRole).Refuses :=
  ⟨(keeps_or_refuses (by simp [all])).1 rfl, (keeps_or_refuses (by simp [all])).2 rfl⟩

end Catalog

end OfferAnswer
