/-
OfferAnswer/Proofs/Attribute/Recoverable.lean

Which attributes are read again from their own text.

An attribute need not come from a line, so its parts may be anything.
`Recoverable` says, kind by kind, of what parts the reader finds again what
the writer put together.  The condition is exact: a recoverable attribute is
read from its own text up to equality, and no other attribute is.  For what
was read is recoverable, and to be recoverable does not depend on what
equality looks past, the case of tokens and the order of mappings.
-/
import OfferAnswer.Proofs.Attribute.Equality

namespace OfferAnswer

open Text Attribute Outcome

variable {p : Char → Prop}

/-! ### Tokens -/

namespace Token

variable {κ : Type} [Vocabulary κ] {a b : Token κ}

/-- A token equals what is read from its own text. -/
theorem ofText_text_beq (t : Token κ) : (ofText t.text == t) = true :=
  beq_iff.mpr (lower_text_ofText t.text)

theorem isWord_of_beq (h : (a == b) = true) (ha : IsWord AnyChar a.text) :
    IsWord AnyChar b.text :=
  isWord_anyChar.mpr ⟨ne_nil_of_lower_eq (beq_iff.mp h) ha.ne_nil,
    not_mem_of_lower_eq (by decide) (beq_iff.mp h) ha.blank_not_mem⟩

end Token

/-! ### Kinds with tokens or mappings -/

namespace RtpMap

variable {m m' : RtpMap}

theorem settled_beq (m : RtpMap) : (m.settled == m) = true :=
  beq_iff.mpr ⟨rfl, m.codec.ofText_text_beq, rfl, rfl⟩

theorem Recoverable.of_beq (h : (m == m') = true) (hm : m.Recoverable AnyChar) :
    m'.Recoverable AnyChar := by
  obtain ⟨hpayloadType, hcodec, hclockRate, hchannels⟩ := beq_iff.mp h
  have hlower := Token.beq_iff.mp hcodec
  exact {
    payloadType := hpayloadType ▸ hm.payloadType
    codec_ne_nil := ne_nil_of_lower_eq hlower hm.codec_ne_nil
    codec_slash := not_mem_of_lower_eq (by decide) hlower hm.codec_slash
    codec_over := over_anyChar
    clockRate := hclockRate ▸ hm.clockRate
    channels := hchannels ▸ hm.channels }

end RtpMap

namespace CertificateHash

variable {c c' : CertificateHash}

theorem settled_beq (c : CertificateHash) : (c.settled == c) = true :=
  beq_iff.mpr ⟨c.function.ofText_text_beq, rfl⟩

theorem Recoverable.of_beq (h : (c == c') = true) (hc : c.Recoverable AnyChar) :
    c'.Recoverable AnyChar := by
  obtain ⟨hfunction, hfingerprint⟩ := beq_iff.mp h
  exact ⟨Token.isWord_of_beq hfunction hc.function, hfingerprint ▸ hc.digest_ne_nil⟩

end CertificateHash

namespace MediaGroup

variable {g g' : MediaGroup}

theorem settled_beq (g : MediaGroup) : (g.settled == g) = true :=
  beq_iff.mpr ⟨g.meaning.ofText_text_beq, rfl⟩

theorem Recoverable.of_beq (h : (g == g') = true) (hg : g.Recoverable AnyChar) :
    g'.Recoverable AnyChar := by
  obtain ⟨hmeaning, hmids⟩ := beq_iff.mp h
  exact ⟨Token.isWord_of_beq hmeaning hg.meaning, hmids ▸ hg.mids_ne_nil, hmids ▸ hg.mids⟩

end MediaGroup

namespace SourceGroup

variable {g g' : SourceGroup}

theorem settled_beq (g : SourceGroup) : (g.settled == g) = true :=
  beq_iff.mpr ⟨g.meaning.ofText_text_beq, rfl⟩

theorem Recoverable.of_beq (h : (g == g') = true) (hg : g.Recoverable AnyChar) :
    g'.Recoverable AnyChar := by
  obtain ⟨hmeaning, hsources⟩ := beq_iff.mp h
  exact ⟨Token.isWord_of_beq hmeaning hg.meaning, hsources ▸ hg.sources⟩

end SourceGroup

namespace Candidate

variable {c c' : Candidate} {o o' : Options}

theorem Options.WellFormed.of_beq (h : (o == o') = true) (ho : o.WellFormed p) :
    o'.WellFormed p := by
  obtain ⟨haddress, hport, hrole, hextensions⟩ := Options.beq_iff.mp h
  refine ⟨haddress ▸ ho.relatedAddress, hport ▸ ho.relatedPort, fun e he => ?_⟩
  -- The extensions are the same, and so are the places that make a key taken.
  obtain ⟨⟨hkey, htaken⟩, hvalue⟩ :=
    ho.extensions e ((OrderedMap.perm_of_beq hextensions).mem_iff.mpr he)
  refine ⟨⟨hkey, htaken.mono ?_ ?_ ?_⟩, hvalue⟩
  · exact haddress ▸ id
  · exact hport ▸ id
  · exact hrole ▸ id

theorem settled_beq (c : Candidate) : (c.settled == c) = true :=
  Candidate.beq_iff.mpr ⟨rfl, rfl, rfl, rfl, rfl, rfl, c.kind.ofText_text_beq, BEq.rfl⟩

theorem Recoverable.of_beq (h : (c == c') = true) (hc : c.Recoverable AnyChar) :
    c'.Recoverable AnyChar := by
  obtain ⟨hfoundation, hcomponent, -, hpriority, haddress, hport, hkind, hoptions⟩ :=
    Candidate.beq_iff.mp h
  exact {
    foundation := hfoundation ▸ hc.foundation
    component := hcomponent ▸ hc.component
    priority := hpriority ▸ hc.priority
    address := haddress ▸ hc.address
    port := hport ▸ hc.port
    kind := Token.isWord_of_beq hkind hc.kind
    options := hc.options.of_beq hoptions }

end Candidate

theorem Simulcast.Recoverable.of_beq {s s' : Simulcast} (h : (s == s') = true)
    (hs : s.Recoverable) : s'.Recoverable := by
  have hperm : s.streams.entries.Perm s'.streams.entries := OrderedMap.perm_of_beq h
  exact ⟨hperm.length_eq ▸ hs.size, fun e he => hs.keptApart e (hperm.mem_iff.mpr he)⟩

namespace Attribute

variable {a b : Attribute} {k : Kind} {raw t : Text} {os os' : List (Token IceOption)}

theorem settled_iceOptions_beq (os : List (Token IceOption)) :
    ((os.map fun o => Token.ofText o.text) == os) = true := by
  rw [forall₂_beq_iff, List.forall₂_map_left_iff, List.forall₂_same]
  exact fun o _ => o.ofText_text_beq

theorem IceOptionsRecoverable.of_beq (h : (os == os') = true) (hos : IceOptionsRecoverable os) :
    IceOptionsRecoverable os' := by
  have hequal := forall₂_beq_iff.mp h
  refine ⟨forall_of_forall₂ hequal (fun o o' ho hoo' => ?_) hos.blank_not_mem, fun hblank => ?_⟩
  · exact not_mem_of_lower_eq (by decide) (Token.beq_iff.mp hoo') ho
  · -- An option that equals an empty one is empty.
    obtain ⟨o', rfl, ho'⟩ := List.map_eq_singleton_iff.mp hblank
    obtain ⟨o, _, hoo', hnil, rfl⟩ := List.forall₂_cons_right_iff.mp hequal
    obtain rfl := List.forall₂_nil_right_iff.mp hnil
    refine hos.not_blank (congrArg (· :: []) ?_)
    by_contra hne
    exact ne_nil_of_lower_eq (Token.beq_iff.mp hoo') hne ho'

/-! ### All kinds -/

/-- What the parts of an attribute must be so that it is read again from its
own text. -/
def Recoverable : Attribute → Prop
  | flag _ | label _ _ | setup _ => True
  | quantity _ n => Decimal.Fits .natural n
  | candidate c => c.Recoverable AnyChar
  | certificate h => h.Recoverable AnyChar
  | group g => g.Recoverable AnyChar
  | iceOptions os => IceOptionsRecoverable os
  | extension e => e.WellFormed AnyChar
  | rtpMap m => m.Recoverable AnyChar
  | formatParameters f => f.WellFormed AnyChar
  | feedback f => f.WellFormed AnyChar
  | controlPort c => c.WellFormed AnyChar
  | mediaStream m => m.WellFormed AnyChar
  | source s =>
    Decimal.Fits (.upTo max32) s.source ∧ ':' ∉ s.name ∧ (s.value = none → s.name ≠ [])
  | sourceGroup g => g.Recoverable AnyChar
  | streamId s => s.WellFormed AnyChar
  | simulcast s => s.Recoverable
  | other name _ => name ≠ [] ∧ ':' ∉ name ∧ Vocabulary.find? (κ := Kind) name = none

theorem WellFormed.recoverable (h : a.WellFormed AnyChar) : a.Recoverable := by
  cases a with
  | flag | label | setup => trivial
  | candidate => exact Candidate.WellFormed.recoverable h
  | certificate => exact CertificateHash.WellFormed.recoverable h
  | group => exact MediaGroup.WellFormed.recoverable h
  | iceOptions => exact IceOptionsWellFormed.recoverable h
  | rtpMap => exact RtpMap.WellFormed.recoverable h
  | source =>
    exact ⟨h.source, h.colon_not_mem_name,
      SourceAttribute.described_ne_nil_iff.mp h.described_ne_nil⟩
  | sourceGroup => exact SourceGroup.WellFormed.recoverable h
  | simulcast => exact Simulcast.recoverable_iff.mpr h
  | other => exact ⟨h.1.1, h.1.2.1, h.1.2.2.1⟩
  | _ => exact h

/-- Equal attributes are recoverable both or neither. -/
theorem Similar.recoverable (h : Similar a b) (ha : a.Recoverable) : b.Recoverable := by
  cases h with
  | refl => exact ha
  | candidate h => exact Candidate.Recoverable.of_beq h ha
  | certificate h => exact CertificateHash.Recoverable.of_beq h ha
  | group h => exact MediaGroup.Recoverable.of_beq h ha
  | iceOptions h => exact IceOptionsRecoverable.of_beq h ha
  | rtpMap h => exact RtpMap.Recoverable.of_beq h ha
  | sourceGroup h => exact SourceGroup.Recoverable.of_beq h ha
  | simulcast h => exact Simulcast.Recoverable.of_beq h ha

/-- What was read is recoverable. -/
theorem recoverable_of_ofText (h : ofText t = .ok a) : a.Recoverable :=
  (wellFormed_of_ofText over_anyChar h).recoverable

theorem exists_similar_of_readValue (hk : a.kind? = some k) (hflag : ∀ f, k ≠ .flag f)
    (hvalue : a.value? = some raw) (h : readValue k raw = .ok b) (hsimilar : Similar b a) :
    ∃ b, ofText a.text = .ok b ∧ Similar b a :=
  ⟨b, (ofText_eq_ok_iff hk hflag hvalue).mpr h, hsimilar⟩

/-- A recoverable attribute is read from its own text, up to what equality
looks past. -/
theorem exists_similar_of_recoverable (h : a.Recoverable) :
    ∃ b, ofText a.text = .ok b ∧ Similar b a := by
  -- A kind without tokens is read as it was.
  have hsame (hwf : a.WellFormed AnyChar) : ∃ b, ofText a.text = .ok b ∧ Similar b a :=
    ⟨a, ofText_text hwf, .refl a⟩
  cases a with
  | candidate c =>
    exact exists_similar_of_readValue (k := .candidate) rfl (by simp) rfl
      (map_eq_ok.mpr ⟨c.settled, c.read_text_of_recoverable h, rfl⟩) (.candidate c.settled_beq)
  | certificate c =>
    exact exists_similar_of_readValue (k := .certificate) rfl (by simp) rfl
      (map_eq_ok.mpr ⟨c.settled, c.read_text_of_recoverable h, rfl⟩) (.certificate c.settled_beq)
  | group g =>
    exact exists_similar_of_readValue (k := .group) rfl (by simp) rfl
      (map_eq_ok.mpr ⟨g.settled, g.read_text_of_recoverable h, rfl⟩) (.group g.settled_beq)
  | iceOptions os =>
    exact exists_similar_of_readValue (k := .iceOptions) rfl (by simp) rfl
      (congrArg (Except.ok ∘ iceOptions) (iceOptionsOf_unwords_of_recoverable h))
      (.iceOptions (settled_iceOptions_beq os))
  | rtpMap m =>
    exact exists_similar_of_readValue (k := .rtpMap) rfl (by simp) rfl
      (map_eq_ok.mpr ⟨m.settled, m.read_text_of_recoverable h, rfl⟩) (.rtpMap m.settled_beq)
  | sourceGroup g =>
    exact exists_similar_of_readValue (k := .sourceGroup) rfl (by simp) rfl
      (map_eq_ok.mpr ⟨g.settled, g.read_text_of_recoverable h, rfl⟩) (.sourceGroup g.settled_beq)
  | source s =>
    exact hsame ⟨h.1, h.2.1, SourceAttribute.described_ne_nil_iff.mpr h.2.2, over_anyChar⟩
  | simulcast s => exact hsame (Simulcast.recoverable_iff.mp h)
  | label => exact hsame over_anyChar
  | other name value => exact hsame ⟨⟨h.1, h.2.1, h.2.2, over_anyChar⟩, fun _ _ => over_anyChar⟩
  | _ => exact hsame h

/-- Written and read again, an attribute equals what it was if it is
recoverable, and only then; and what is read from any text is recoverable. -/
theorem recoverable_iff_reread (a : Attribute) :
    (a.Recoverable ↔ ∃ b, ofText a.text = .ok b ∧ (b == a) = true)
      ∧ ∀ t, ofText t = .ok a → a.Recoverable := by
  refine ⟨⟨fun h => ?_, ?_⟩, fun t => recoverable_of_ofText⟩
  · obtain ⟨b, hb, hsimilar⟩ := exists_similar_of_recoverable h
    exact ⟨b, hb, hsimilar.beq⟩
  · rintro ⟨b, hb, hbeq⟩
    exact (similar_of_beq hbeq).recoverable (recoverable_of_ofText hb)

/-- A candidate with a second related address among its extensions, where the
kind is not spelled as it is registered. -/
def relayedTwice : Candidate where
  foundation := "1".toList
  component := 1
  transport := .udp
  priority := 41885439
  address := "198.51.100.7".toList
  port := 3478
  kind := .other "Relay".toList
  options :=
    { relatedAddress := some "10.0.0.1".toList
      relatedPort := some 50000
      tcpRole := none
      extensions := .ofList [("RADDR".toList, "10.0.0.2".toList)] }

theorem recoverable_iff_reread_relayedTwice :
    (∃ b, ofText (candidate relayedTwice).text = .ok b ∧ (b == candidate relayedTwice) = true)
      ∧ (candidate relayedTwice.settled).Recoverable := by
  have hwords : ∀ t ∈ ["1", "198.51.100.7", "Relay", "10.0.0.1", "RADDR", "10.0.0.2"],
      IsWord AnyChar t.toList := by
    simp only [isWord_anyChar]
    decide
  have hrecoverable : (candidate relayedTwice).Recoverable := {
    foundation := hwords "1" (by decide)
    component := Decimal.fits_upTo (by decide) (by decide) (by decide)
    priority := Decimal.fits_upTo (by decide) (by decide) (by decide)
    address := hwords "198.51.100.7" (by decide)
    port := Decimal.fits_upTo (by decide) (by decide) (by decide)
    kind := hwords "Relay" (by decide)
    options := {
      relatedAddress := fun _ ha => Option.some.inj ha ▸ hwords "10.0.0.1" (by decide)
      relatedPort := fun _ hn =>
        Option.some.inj hn ▸ Decimal.fits_upTo (by decide) (by decide) (by decide)
      extensions := fun e he => by
        obtain rfl : e = ("RADDR".toList, "10.0.0.2".toList) := List.mem_singleton.mp he
        exact ⟨⟨hwords "RADDR" (by decide), fun _ => rfl, fun _ => rfl, by decide⟩,
          hwords "10.0.0.2" (by decide)⟩ } }
  exact ⟨(recoverable_iff_reread _).1.mp hrecoverable,
    (recoverable_iff_reread _).2 (candidate relayedTwice).text rfl⟩

end Attribute

end OfferAnswer
