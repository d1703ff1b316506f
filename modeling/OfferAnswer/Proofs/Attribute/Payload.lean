/-
OfferAnswer/Proofs/Attribute/Payload.lean

Attributes of payload types, written and read again.

For each attribute `WellFormed` says what its reader assures, whatever the
value was.  A well-formed attribute is read from its own text, and over an
alphabet its text is over that alphabet.

Where an attribute has a token, `Recoverable` leaves open how the token is
spelled.  A recoverable attribute is read from its own text up to that
spelling (`settled`), which equality looks past.
-/
import OfferAnswer.Attribute.Payload
import OfferAnswer.Proofs.Attribute.Codec

namespace OfferAnswer

open Text Attribute Outcome

variable {p : Char → Prop} {raw : Text}

/-! ### Codecs -/

namespace RtpMap

variable {m : RtpMap}

structure WellFormed (p : Char → Prop) (m : RtpMap) : Prop where
  payloadType : Decimal.Fits (.upTo maxPayloadType) m.payloadType
  codec_canonical : m.codec.IsCanonical
  codec_ne_nil : m.codec.text ≠ []
  codec_slash : '/' ∉ m.codec.text
  codec_over : Over p m.codec.text
  clockRate : Decimal.Fits .natural m.clockRate
  channels : ∀ n ∈ m.channels, Decimal.Fits (.upTo 255) n

/-- The codec, the clock rate and the channels between slashes. -/
def parts (m : RtpMap) : List Text :=
  m.codec.text :: Decimal.text m.clockRate :: (m.channels.map Decimal.text).toList

theorem text_eq : m.text = unwords [Decimal.text m.payloadType, ['/'].intercalate m.parts] := by
  cases h : m.channels <;> simp [text, parts, h, List.intercalate]

theorem wellFormed_of_read [Alphabet p] (hraw : Over p raw) (h : read raw = .ok m) :
    m.WellFormed p := by
  obtain ⟨ws, hws, h⟩ := bind_eq_ok.mp h
  obtain ⟨-, hfilled⟩ := isWord_of_wordsUpTo hraw hws
  split at h
  · next payloadType encoding =>
    split at h
    · next codec clockRate more hsplit =>
      obtain ⟨hparts, -, -, hslash⟩ := splitAtMost_eq_iff.mp hsplit
      have hencoding : Over p encoding := (hfilled encoding (by simp)).2
      -- The encoding is its parts, with slashes between them.
      rw [← hparts] at hencoding
      split at h
      · simp [throw_ne_ok, bind_eq_ok] at h
      · next hcodec =>
        simp only [bind_eq_ok, pure_eq_ok] at h
        obtain ⟨pt, hpt, rate, hrate, channels, hchannels, rfl⟩ := h
        exact {
          payloadType := fits_of_integer hpt
          codec_canonical := Token.isCanonical_ofText codec
          codec_ne_nil := Token.ne_nil_text_ofText hcodec
          codec_slash := Token.text_ofText_induction (P := fun t => '/' ∉ t)
            Codec.slash_not_mem_spelling (hslash codec (by simp))
          codec_over := Token.over_text_ofText (over_of_over_intercalate hencoding (by simp))
          clockRate := fits_of_integer hrate
          channels := fun n hn => by
            obtain ⟨t, -, ht⟩ := mem_of_optionMapM hchannels n hn
            exact fits_of_integer ht }
    · simp [throw_ne_ok] at h
  · simp [throw_ne_ok] at h

/-- What is read again when it has been written, but for the spelling of the
codec. -/
structure Recoverable (p : Char → Prop) (m : RtpMap) : Prop where
  payloadType : Decimal.Fits (.upTo maxPayloadType) m.payloadType
  codec_ne_nil : m.codec.text ≠ []
  codec_slash : '/' ∉ m.codec.text
  codec_over : Over p m.codec.text
  clockRate : Decimal.Fits .natural m.clockRate
  channels : ∀ n ∈ m.channels, Decimal.Fits (.upTo 255) n

theorem WellFormed.recoverable (h : m.WellFormed p) : m.Recoverable p :=
  ⟨h.payloadType, h.codec_ne_nil, h.codec_slash, h.codec_over, h.clockRate, h.channels⟩

/-- With the codec as it is read from its own text. -/
def settled (m : RtpMap) : RtpMap := { m with codec := .ofText m.codec.text }

theorem read_text_of_recoverable (h : m.Recoverable p) : read m.text = .ok m.settled := by
  have hne : ['/'].intercalate m.parts ≠ [] :=
    intercalate_ne_nil (a := m.codec.text) (by simp [parts]) h.codec_ne_nil
  have hwords : wordsUpTo 2 2 m.text
      = .ok [Decimal.text m.payloadType, ['/'].intercalate m.parts] := by
    rw [text_eq]
    exact wordsUpTo_pair (Decimal.isWord_text m.payloadType) hne
  have hsplit : splitAtMost '/' 2 (['/'].intercalate m.parts) = m.parts := by
    have hrate : '/' ∉ Decimal.text m.clockRate := Decimal.not_mem_text (by decide) (by decide)
    refine splitAtMost_eq_iff.mpr ⟨rfl, by simp [parts], ?_, ?_⟩
    · cases hc : m.channels <;> simp [parts, hc]
    · simpa [parts] using ⟨h.codec_slash, hrate⟩
  have hchannels : (m.channels.map Decimal.text).mapM (integer (.upTo 255)) = .ok m.channels :=
    optionMapM_map fun n hn => integer_text (h.channels n hn)
  rw [read, hwords, ok_bind]
  simp only [hsplit]
  simp [parts, h.codec_ne_nil, integer_text h.payloadType, integer_text h.clockRate, hchannels,
    settled]

theorem read_text (h : m.WellFormed p) : read m.text = .ok m := by
  rw [read_text_of_recoverable h.recoverable, settled, h.codec_canonical.eq]

theorem over_text [Alphabet p] (h : m.WellFormed p) : Over p m.text := by
  rw [text_eq, over_unwords]
  have hparts : Over p (['/'].intercalate m.parts) := by
    refine over_intercalate (Alphabet.plain _ (by decide)) fun a ha => ?_
    rcases List.mem_cons.mp ha with rfl | ha
    · exact h.codec_over
    rcases List.mem_cons.mp ha with rfl | ha
    · exact Decimal.over_text m.clockRate
    obtain ⟨n, -, rfl⟩ := Option.map_eq_some_iff.mp (Option.mem_toList.mp ha)
    exact Decimal.over_text n
  simpa using ⟨Decimal.over_text m.payloadType, hparts⟩

end RtpMap

/-! ### Format parameters -/

namespace FormatParameters

variable {f : FormatParameters}

structure WellFormed (p : Char → Prop) (f : FormatParameters) : Prop where
  payloadType : Decimal.Fits (.upTo maxPayloadType) f.payloadType
  parameters_ne_nil : f.parameters ≠ []
  parameters_over : Over p f.parameters

theorem text_eq : f.text = unwords [Decimal.text f.payloadType, f.parameters] := by
  simp [text]

theorem wellFormed_of_read (hraw : Over p raw) (h : read raw = .ok f) : f.WellFormed p := by
  obtain ⟨ws, hws, h⟩ := bind_eq_ok.mp h
  obtain ⟨-, hfilled⟩ := isWord_of_wordsUpTo hraw hws
  split at h
  · next payloadType parameters =>
    obtain ⟨pt, hpt, h⟩ := bind_eq_ok.mp h
    obtain rfl := pure_eq_ok.mp h
    obtain ⟨hne, hover⟩ := hfilled parameters (by simp)
    exact ⟨fits_of_integer hpt, hne, hover⟩
  · simp [throw_ne_ok] at h

theorem read_text (h : f.WellFormed p) : read f.text = .ok f := by
  have hwords : wordsUpTo 2 2 f.text = .ok [Decimal.text f.payloadType, f.parameters] := by
    rw [text_eq]
    exact wordsUpTo_pair (Decimal.isWord_text f.payloadType) h.parameters_ne_nil
  rw [read, hwords]
  simp [integer_text h.payloadType]

theorem over_text [Alphabet p] (h : f.WellFormed p) : Over p f.text := by
  rw [text_eq, over_unwords]
  simpa using ⟨Decimal.over_text f.payloadType, h.parameters_over⟩

end FormatParameters

/-! ### Feedback -/

namespace Feedback

variable {f : Feedback}

structure WellFormed (p : Char → Prop) (f : Feedback) : Prop where
  payloadType : ∀ n ∈ f.payloadType, Decimal.Fits (.upTo maxPayloadType) n
  id : IsWord p f.id
  parameter : ∀ t ∈ f.parameter, t ≠ [] ∧ Over p t

/-- The payload type as written. -/
def target (f : Feedback) : Text := (f.payloadType.map Decimal.text).getD ['*']

theorem isWord_target (f : Feedback) : IsWord IsPlain f.target := by
  cases h : f.payloadType with
  | none => exact ⟨by simp [target, h], by simp [target, h], by simp [target, h]; decide⟩
  | some n => simpa [target, h] using Decimal.isWord_text n

/-- A star is no payload type. -/
theorem text_ne_star (n : Int) : Decimal.text n ≠ ['*'] := by
  intro h
  have : '*' ∈ Decimal.text n := by simp [h]
  exact Decimal.not_mem_text (by decide) (by decide) this

theorem wellFormed_of_read (hraw : Over p raw) (h : read raw = .ok f) : f.WellFormed p := by
  obtain ⟨ws, hws, h⟩ := bind_eq_ok.mp h
  obtain ⟨hwords, hfilled⟩ := isWord_of_wordsUpTo hraw hws
  split at h
  · next target id more =>
    have hid : IsWord p id := hwords id (by simp)
    have hmore : ∀ t ∈ more.head?, t ≠ [] ∧ Over p t := fun t ht =>
      hfilled t (List.mem_cons_of_mem _ (List.mem_cons_of_mem _ (List.mem_of_mem_head? ht)))
    simp only [pure_eq, ok_bind] at h
    split at h
    · obtain rfl := pure_eq_ok.mp h
      exact ⟨by simp, hid, hmore⟩
    · simp only [bind_eq_ok, map_eq_ok] at h
      obtain ⟨_, ⟨n, hn, rfl⟩, h⟩ := h
      obtain rfl := pure_eq_ok.mp h
      exact ⟨by simpa using fits_of_integer hn, hid, hmore⟩
  · simp [throw_ne_ok] at h

theorem read_text [Alphabet p] (h : f.WellFormed p) : read f.text = .ok f := by
  have hwords : wordsUpTo 2 3 f.text = .ok ([f.target, f.id] ++ f.parameter.toList) :=
    wordsUpTo_triple f.isWord_target.of_plain h.id fun t ht => (h.parameter t ht).1
  rw [read, hwords, ok_bind]
  obtain ⟨- | n, id, parameter⟩ := f
  · simp [target]
  · simp [target, text_ne_star, integer_text (h.payloadType n rfl)]

theorem over_text [Alphabet p] (h : f.WellFormed p) : Over p f.text := by
  rw [text, over_unwords]
  rintro w hw
  rcases List.mem_append.mp hw with hw | hw
  · have : ∀ w ∈ [f.target, f.id], Over p w := by
      simpa using ⟨f.isWord_target.chars.of_plain, h.id.chars⟩
    exact this w hw
  · exact (h.parameter w (Option.mem_toList.mp hw)).2

end Feedback

end OfferAnswer
