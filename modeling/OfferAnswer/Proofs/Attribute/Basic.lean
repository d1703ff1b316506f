/-
OfferAnswer/Proofs/Attribute/Basic.lean

Attributes of all kinds, written and read again.

`WellFormed` gathers what the readers of the kinds assure.  An attribute that
was read is well-formed (`wellFormed_of_ofText`), and a well-formed attribute
is read from its own text (`ofText_text`).
-/
import OfferAnswer.Proofs.Attribute.Candidate
import OfferAnswer.Proofs.Attribute.Payload
import OfferAnswer.Proofs.Attribute.Source
import OfferAnswer.Proofs.Attribute.Transport

namespace OfferAnswer.Attribute

open Text Outcome

variable {p : Char → Prop} {raw name t : Text} {a : Attribute} {k : Kind}

/-! ### Options -/

/-- Options as they are read from one value. -/
structure IceOptionsWellFormed (p : Char → Prop) (os : List (Token IceOption)) : Prop where
  canonical : ∀ o ∈ os, o.IsCanonical
  blank_not_mem : ∀ o ∈ os, ' ' ∉ o.text
  chars : ∀ o ∈ os, Over p o.text
  /-- A single empty option would be written like no option at all. -/
  ne_nil : os ≠ [] → unwords (os.map Token.text) ≠ []

theorem iceOptionsWellFormed [Alphabet p] (hraw : Over p raw) :
    IceOptionsWellFormed p (iceOptionsOf raw) := by
  unfold iceOptionsOf
  split
  · exact ⟨by simp, by simp, by simp, fun h => absurd rfl h⟩
  · next hne =>
    refine ⟨?_, ?_, ?_, fun _ => ?_⟩
    · simpa using fun w _ => Token.isCanonical_ofText w
    · refine List.forall_mem_map.mpr fun w hw => ?_
      exact Token.text_ofText_induction (P := fun t => ' ' ∉ t)
        (fun k => (Vocabulary.isWord_spelling k).blank_not_mem) (not_mem_of_mem_splitOn hw)
    · exact List.forall_mem_map.mpr fun w hw => Token.over_text_ofText (hraw.of_mem_words hw)
    · -- only a lone empty word is joined to nothing, and no other word is read as one
      rw [List.map_map]
      by_cases hwords : ∃ w ∈ words raw, w ≠ []
      · obtain ⟨w, hw, hw'⟩ := hwords
        exact intercalate_ne_nil (List.mem_map.mpr ⟨w, hw, rfl⟩) (Token.ne_nil_text_ofText hw')
      · have hall : (words raw).map (Token.text ∘ (Token.ofText : Text → Token IceOption))
            = words raw := by
          rw [← List.map_id (words raw), List.map_map]
          refine List.map_congr_left fun w hw => ?_
          obtain rfl : w = [] := by
            by_contra hne
            exact hwords ⟨w, hw, hne⟩
          decide
        rw [hall, unwords_words]
        exact hne

/-- Options that are read again when they have been written, but for their
spelling. -/
structure IceOptionsRecoverable (os : List (Token IceOption)) : Prop where
  blank_not_mem : ∀ o ∈ os, ' ' ∉ o.text
  /-- A single empty option would be written like no option at all. -/
  not_blank : os.map Token.text ≠ [[]]

theorem IceOptionsWellFormed.recoverable {os : List (Token IceOption)}
    (h : IceOptionsWellFormed p os) : IceOptionsRecoverable os where
  blank_not_mem := h.blank_not_mem
  not_blank hlone := by
    refine h.ne_nil ?_ (intercalate_eq_nil_iff.mpr (.inr hlone))
    rintro rfl
    simp at hlone

theorem iceOptionsOf_unwords_of_recoverable {os : List (Token IceOption)}
    (h : IceOptionsRecoverable os) :
    iceOptionsOf (unwords (os.map Token.text)) = os.map fun o => .ofText o.text := by
  rcases eq_or_ne os [] with rfl | hne
  · rfl
  · have hwritten : unwords (os.map Token.text) ≠ [] := fun hnil =>
      (intercalate_eq_nil_iff.mp hnil).elim (by simpa using hne) h.not_blank
    have hwords : words (unwords (os.map Token.text)) = os.map Token.text :=
      words_unwords (by simpa using hne) (List.forall_mem_map.mpr h.blank_not_mem)
    rw [iceOptionsOf, if_neg hwritten, hwords, List.map_map]
    rfl

theorem iceOptionsOf_unwords {os : List (Token IceOption)} (h : IceOptionsWellFormed p os) :
    iceOptionsOf (unwords (os.map Token.text)) = os := by
  rw [iceOptionsOf_unwords_of_recoverable h.recoverable]
  exact (List.map_congr_left h.canonical).trans (List.map_id os)

/-! ### All kinds -/

/-- What the reader of its kind assures of an attribute. -/
def WellFormed (p : Char → Prop) : Attribute → Prop
  | flag _ | setup _ => True
  | label _ value => Over p value
  | quantity _ n => Decimal.Fits .natural n
  | candidate c => c.WellFormed p
  | certificate h => h.WellFormed p
  | group g => g.WellFormed p
  | iceOptions os => IceOptionsWellFormed p os
  | extension e => e.WellFormed p
  | rtpMap m => m.WellFormed p
  | formatParameters f => f.WellFormed p
  | feedback f => f.WellFormed p
  | controlPort c => c.WellFormed p
  | mediaStream m => m.WellFormed p
  | source s => s.WellFormed p
  | sourceGroup g => g.WellFormed p
  | streamId s => s.WellFormed p
  | simulcast s => s.WellFormed p
  | other name value =>
    (name ≠ [] ∧ ':' ∉ name ∧ Vocabulary.find? (κ := Kind) name = none ∧ Over p name)
      ∧ ∀ t ∈ value, Over p t

theorem wellFormed_of_readValue [Alphabet p] (hraw : Over p raw) (h : readValue k raw = .ok a) :
    a.WellFormed p := by
  cases k with
  | flag f =>
    obtain rfl := Except.ok.inj h
    trivial
  | label l =>
    obtain rfl := Except.ok.inj h
    exact hraw
  | iceOptions =>
    obtain rfl := Except.ok.inj h
    exact iceOptionsWellFormed hraw
  | quantity q =>
    obtain ⟨n, hn, rfl⟩ := map_eq_ok.mp h
    exact fits_of_integer hn
  | setup =>
    obtain ⟨r, -, rfl⟩ := map_eq_ok.mp h
    trivial
  | candidate =>
    obtain ⟨c, hc, rfl⟩ := map_eq_ok.mp h
    exact Candidate.wellFormed_of_read hraw hc
  | certificate =>
    obtain ⟨c, hc, rfl⟩ := map_eq_ok.mp h
    exact CertificateHash.wellFormed_of_read hraw hc
  | group =>
    obtain ⟨g, hg, rfl⟩ := map_eq_ok.mp h
    exact MediaGroup.wellFormed_of_read hraw hg
  | extension =>
    obtain ⟨e, he, rfl⟩ := map_eq_ok.mp h
    exact ExtensionMap.wellFormed_of_read hraw he
  | rtpMap =>
    obtain ⟨m, hm, rfl⟩ := map_eq_ok.mp h
    exact RtpMap.wellFormed_of_read hraw hm
  | formatParameters =>
    obtain ⟨f, hf, rfl⟩ := map_eq_ok.mp h
    exact FormatParameters.wellFormed_of_read hraw hf
  | feedback =>
    obtain ⟨f, hf, rfl⟩ := map_eq_ok.mp h
    exact Feedback.wellFormed_of_read hraw hf
  | controlPort =>
    obtain ⟨c, hc, rfl⟩ := map_eq_ok.mp h
    exact ControlPort.wellFormed_of_read hraw hc
  | mediaStream =>
    obtain ⟨m, hm, rfl⟩ := map_eq_ok.mp h
    exact MediaStream.wellFormed_of_read hraw hm
  | source =>
    obtain ⟨s, hs, rfl⟩ := map_eq_ok.mp h
    exact SourceAttribute.wellFormed_of_read hraw hs
  | sourceGroup =>
    obtain ⟨g, hg, rfl⟩ := map_eq_ok.mp h
    exact SourceGroup.wellFormed_of_read hraw hg
  | streamId =>
    obtain ⟨s, hs, rfl⟩ := map_eq_ok.mp h
    exact StreamId.wellFormed_of_read hraw hs
  | simulcast =>
    obtain ⟨s, hs, rfl⟩ := map_eq_ok.mp h
    exact Simulcast.wellFormed_of_read hraw hs

/-- An attribute is well-formed if its name, unless it is registered, is as a
line would have it. -/
theorem wellFormed_of_ofNameValue [Alphabet p] {value : Option Text}
    (hname : ∀ t, a = other name t → ':' ∉ name ∧ Over p name) (hvalue : ∀ t ∈ value, Over p t)
    (h : ofNameValue name value = .ok a) : a.WellFormed p := by
  unfold ofNameValue at h
  split at h
  · simp at h
  · next hne =>
    split at h
    · next hfind =>
      -- a name that is not registered
      obtain rfl := Except.ok.inj h
      obtain ⟨hcolon, hover⟩ := hname _ rfl
      exact ⟨⟨hne, hcolon, hfind, hover⟩, hvalue⟩
    · obtain rfl := Except.ok.inj h
      trivial
    · simp at h
    · simp at h
    · exact wellFormed_of_readValue (hvalue _ rfl) (mapError_eq_ok.mp h)

/-- An attribute that was read is well-formed. -/
theorem wellFormed_of_ofText [Alphabet p] (ht : Over p t) (h : ofText t = .ok a) :
    a.WellFormed p := by
  obtain ⟨htail, hcolon⟩ := cut_eq_iff.mp (Prod.eta (cut ':' t)).symm
  rw [← htail, over_withTail (Alphabet.plain _ (by decide))] at ht
  exact wellFormed_of_ofNameValue (fun _ _ => ⟨hcolon, ht.1⟩) ht.2 h

/-! ### Writing -/

theorem text_eq (a : Attribute) : a.text = withTail ':' a.name a.value? := by
  unfold text nameValueText
  cases a.value? <;> simp

theorem name_of_kind? (h : a.kind? = some k) : a.name = Vocabulary.spelling k := by
  cases a <;> simp_all [name, kind?]

theorem kind?_eq_none_iff : a.kind? = none ↔ ∃ name value, a = other name value := by
  cases a <;> simp [kind?]

theorem colon_not_mem_of_kind? (h : a.kind? = some k) : ':' ∉ a.name := by
  rw [name_of_kind? h]
  exact Vocabulary.colon_not_mem_spelling k

/-- A name is a plain word without a colon, if it is registered. -/
theorem colon_not_mem_name (h : a.WellFormed p) : ':' ∉ a.name := by
  rcases hk : a.kind? with - | k
  · obtain ⟨name, value, rfl⟩ := kind?_eq_none_iff.mp hk
    exact h.1.2.1
  · exact colon_not_mem_of_kind? hk

theorem ofText_eq (h : ':' ∉ a.name) : ofText a.text = ofNameValue a.name a.value? := by
  have hcut : cut ':' a.text = (a.name, a.value?) := cut_eq_iff.mpr ⟨(text_eq a).symm, h⟩
  simp [ofText, hcut]

/-- The value of a registered attribute is read as its kind says. -/
theorem ofNameValue_spelling_iff (hk : ∀ f, k ≠ .flag f) :
    ofNameValue (Vocabulary.spelling k) (some raw) = .ok a ↔ readValue k raw = .ok a := by
  have hne : Vocabulary.spelling k ≠ [] := (Vocabulary.isWord_spelling k).ne_nil
  unfold ofNameValue
  rw [if_neg hne, Vocabulary.find?_spelling]
  cases k with
  | flag f => exact absurd rfl (hk f)
  | _ => exact mapError_eq_ok

theorem ofNameValue_spelling (h : readValue k raw = .ok a) (hk : ∀ f, k ≠ .flag f) :
    ofNameValue (Vocabulary.spelling k) (some raw) = .ok a :=
  (ofNameValue_spelling_iff hk).mpr h

/-- A well-formed attribute is read from its own text. -/
theorem ofText_text [Alphabet p] (h : a.WellFormed p) : ofText a.text = .ok a := by
  rw [ofText_eq (colon_not_mem_name h)]
  cases a with
  | flag f =>
    have hne : Vocabulary.spelling (Kind.flag f) ≠ [] := (Vocabulary.isWord_spelling _).ne_nil
    show ofNameValue (Vocabulary.spelling (Kind.flag f)) none = _
    unfold ofNameValue
    rw [if_neg hne, Vocabulary.find?_spelling]
  | other name value =>
    show ofNameValue name value = _
    unfold ofNameValue
    rw [if_neg h.1.1, h.1.2.2.1]
  | label l value => exact ofNameValue_spelling (k := .label l) rfl (by simp)
  | iceOptions os =>
    exact ofNameValue_spelling (k := .iceOptions)
      (congrArg (Except.ok ∘ iceOptions) (iceOptionsOf_unwords h)) (by simp)
  | quantity q n =>
    exact ofNameValue_spelling (k := .quantity q)
      (map_eq_ok.mpr ⟨n, integer_text h, rfl⟩) (by simp)
  | setup r =>
    exact ofNameValue_spelling (k := .setup) (map_eq_ok.mpr ⟨r, word_spelling r, rfl⟩) (by simp)
  | candidate c =>
    exact ofNameValue_spelling (k := .candidate) (map_eq_ok.mpr ⟨c, c.read_text h, rfl⟩) (by simp)
  | certificate c =>
    exact ofNameValue_spelling (k := .certificate) (map_eq_ok.mpr ⟨c, c.read_text h, rfl⟩)
      (by simp)
  | group g =>
    exact ofNameValue_spelling (k := .group) (map_eq_ok.mpr ⟨g, g.read_text h, rfl⟩) (by simp)
  | extension e =>
    exact ofNameValue_spelling (k := .extension) (map_eq_ok.mpr ⟨e, e.read_text h, rfl⟩) (by simp)
  | rtpMap m =>
    exact ofNameValue_spelling (k := .rtpMap) (map_eq_ok.mpr ⟨m, m.read_text h, rfl⟩) (by simp)
  | formatParameters f =>
    exact ofNameValue_spelling (k := .formatParameters) (map_eq_ok.mpr ⟨f, f.read_text h, rfl⟩)
      (by simp)
  | feedback f =>
    exact ofNameValue_spelling (k := .feedback) (map_eq_ok.mpr ⟨f, f.read_text h, rfl⟩) (by simp)
  | controlPort c =>
    exact ofNameValue_spelling (k := .controlPort) (map_eq_ok.mpr ⟨c, c.read_text h, rfl⟩)
      (by simp)
  | mediaStream m =>
    exact ofNameValue_spelling (k := .mediaStream) (map_eq_ok.mpr ⟨m, m.read_text h, rfl⟩)
      (by simp)
  | source s =>
    exact ofNameValue_spelling (k := .source) (map_eq_ok.mpr ⟨s, s.read_text h, rfl⟩) (by simp)
  | sourceGroup g =>
    exact ofNameValue_spelling (k := .sourceGroup) (map_eq_ok.mpr ⟨g, g.read_text h, rfl⟩)
      (by simp)
  | streamId s =>
    exact ofNameValue_spelling (k := .streamId) (map_eq_ok.mpr ⟨s, s.read_text h, rfl⟩) (by simp)
  | simulcast s =>
    exact ofNameValue_spelling (k := .simulcast) (map_eq_ok.mpr ⟨s, s.read_text h, rfl⟩) (by simp)

theorem over_name_of_kind? [Alphabet p] (h : a.kind? = some k) : Over p a.name := by
  rw [name_of_kind? h]
  exact (Vocabulary.isWord_spelling k).chars.of_plain

theorem over_name [Alphabet p] (h : a.WellFormed p) : Over p a.name := by
  rcases hk : a.kind? with - | k
  · obtain ⟨name, value, rfl⟩ := kind?_eq_none_iff.mp hk
    exact h.1.2.2.2
  · exact over_name_of_kind? hk

theorem over_value [Alphabet p] (h : a.WellFormed p) : ∀ t ∈ a.value?, Over p t := by
  intro t ht
  cases a with
  | flag f => simp [value?] at ht
  | other name value => exact h.2 t ht
  | label l value => exact Option.some.inj ht ▸ h
  | quantity q n => exact Option.some.inj ht ▸ Decimal.over_text n
  | setup r => exact Option.some.inj ht ▸ (Vocabulary.isWord_spelling r).chars.of_plain
  | iceOptions os =>
    exact Option.some.inj ht ▸ over_unwords.mpr (List.forall_mem_map.mpr h.chars)
  | candidate c => exact Option.some.inj ht ▸ c.over_text h
  | certificate c => exact Option.some.inj ht ▸ c.over_text h
  | group g => exact Option.some.inj ht ▸ g.over_text h
  | extension e => exact Option.some.inj ht ▸ e.over_text h
  | rtpMap m => exact Option.some.inj ht ▸ m.over_text h
  | formatParameters f => exact Option.some.inj ht ▸ f.over_text h
  | feedback f => exact Option.some.inj ht ▸ f.over_text h
  | controlPort c => exact Option.some.inj ht ▸ c.over_text h
  | mediaStream m => exact Option.some.inj ht ▸ m.over_text h
  | source s => exact Option.some.inj ht ▸ s.over_text h
  | sourceGroup g => exact Option.some.inj ht ▸ g.over_text h
  | streamId s => exact Option.some.inj ht ▸ s.over_text h
  | simulcast s => exact Option.some.inj ht ▸ s.over_text h.toLegible

theorem over_text_iff [Alphabet p] : Over p a.text ↔ Over p a.name ∧ ∀ t ∈ a.value?, Over p t := by
  rw [text_eq, over_withTail (Alphabet.plain _ (by decide))]

theorem over_text [Alphabet p] (h : a.WellFormed p) : Over p a.text :=
  over_text_iff.mpr ⟨over_name h, over_value h⟩

/-- A registered attribute with a value is read as its kind reads the value,
well-formed or not. -/
theorem ofText_eq_ok_iff {b : Attribute} (h : a.kind? = some k) (hk : ∀ f, k ≠ .flag f)
    (hvalue : a.value? = some raw) : ofText a.text = .ok b ↔ readValue k raw = .ok b := by
  rw [ofText_eq (colon_not_mem_of_kind? h), name_of_kind? h, hvalue]
  exact ofNameValue_spelling_iff hk

end OfferAnswer.Attribute
