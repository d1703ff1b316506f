/-
OfferAnswer/Proofs/Attribute/Equality.lean

Equality of attributes.

It is reflexive, and it looks past two things: the case of tokens, and the
order of mappings.  So attributes of most kinds are equal only if they are the
same; `Similar` lists the kinds where equal attributes may differ.  Equal
attributes have one name, and are written on one line both or neither.
-/
import OfferAnswer.Proofs.Attribute.Basic
import OfferAnswer.Proofs.Case

namespace OfferAnswer

open Text

deriving instance ReflBEq for RtpMap, FormatParameters, Feedback
deriving instance ReflBEq for CertificateHash, ControlPort, ExtensionMap, MediaGroup
deriving instance ReflBEq for SourceAttribute, StreamId, Simulcast, MediaStream

instance : ReflBEq SourceGroup where
  rfl {g} := by
    show (g.meaning == g.meaning && g.sources == g.sources) = true
    simp

deriving instance ReflBEq for Candidate.Options
deriving instance ReflBEq for Candidate
deriving instance ReflBEq for Attribute
deriving instance LawfulBEq for FormatParameters, Feedback, ControlPort, ExtensionMap
deriving instance LawfulBEq for SourceAttribute, StreamId, MediaStream

/-! ### Lists -/

/-- Lists are equal element by element. -/
theorem forall₂_beq_iff {α : Type} [BEq α] {as bs : List α} :
    (as == bs) = true ↔ List.Forall₂ (fun a b => (a == b) = true) as bs := by
  induction as generalizing bs with
  | nil => cases bs <;> simp
  | cons a as ih => cases bs <;> simp [ih]

/-- What is related to elements that have a property has one too. -/
theorem forall_of_forall₂ {α β : Type} {R : α → β → Prop} {P : α → Prop} {Q : β → Prop}
    {xs : List α} {ys : List β} (h : List.Forall₂ R xs ys) (hR : ∀ x y, P x → R x y → Q y)
    (hP : ∀ x ∈ xs, P x) : ∀ y ∈ ys, Q y := by
  induction h with
  | nil => simp
  | cons hxy _ ih =>
    rw [List.forall_mem_cons] at hP ⊢
    exact ⟨hR _ _ hP.1 hxy, ih hP.2⟩

/-! ### Kinds with tokens or mappings -/

theorem RtpMap.beq_iff {m m' : RtpMap} : (m == m') = true ↔ m.payloadType = m'.payloadType
    ∧ (m.codec == m'.codec) = true ∧ m.clockRate = m'.clockRate ∧ m.channels = m'.channels := by
  change (m.payloadType == m'.payloadType && (m.codec == m'.codec && (m.clockRate == m'.clockRate
    && m.channels == m'.channels))) = true ↔ _
  simp only [Bool.and_eq_true, beq_iff_eq]

theorem CertificateHash.beq_iff {h h' : CertificateHash} : (h == h') = true ↔
    (h.function == h'.function) = true ∧ h.fingerprint = h'.fingerprint := by
  change (h.function == h'.function && h.fingerprint == h'.fingerprint) = true ↔ _
  simp only [Bool.and_eq_true, beq_iff_eq]

theorem MediaGroup.beq_iff {g g' : MediaGroup} : (g == g') = true ↔
    (g.meaning == g'.meaning) = true ∧ g.mids = g'.mids := by
  change (g.meaning == g'.meaning && g.mids == g'.mids) = true ↔ _
  simp only [Bool.and_eq_true, beq_iff_eq]

theorem SourceGroup.beq_iff {g g' : SourceGroup} : (g == g') = true ↔
    (g.meaning == g'.meaning) = true ∧ g.sources = g'.sources := by
  change (g.meaning == g'.meaning && g.sources == g'.sources) = true ↔ _
  simp only [Bool.and_eq_true, beq_iff_eq]

theorem Candidate.Options.beq_iff {o o' : Options} : (o == o') = true ↔
    o.relatedAddress = o'.relatedAddress ∧ o.relatedPort = o'.relatedPort
      ∧ o.tcpRole = o'.tcpRole ∧ (o.extensions == o'.extensions) = true := by
  change (o.relatedAddress == o'.relatedAddress && (o.relatedPort == o'.relatedPort
    && (o.tcpRole == o'.tcpRole && o.extensions == o'.extensions))) = true ↔ _
  simp only [Bool.and_eq_true, beq_iff_eq]

theorem Candidate.beq_iff {c c' : Candidate} : (c == c') = true ↔
    c.foundation = c'.foundation ∧ c.component = c'.component ∧ c.transport = c'.transport
      ∧ c.priority = c'.priority ∧ c.address = c'.address ∧ c.port = c'.port
      ∧ (c.kind == c'.kind) = true ∧ (c.options == c'.options) = true := by
  change (c.foundation == c'.foundation && (c.component == c'.component
    && (c.transport == c'.transport && (c.priority == c'.priority && (c.address == c'.address
      && (c.port == c'.port && (c.kind == c'.kind && c.options == c'.options))))))) = true ↔ _
  simp only [Bool.and_eq_true, beq_iff_eq]

/-! ### Line feeds

Equal values are written on one line both or neither: their texts differ in the
case of tokens and in the order of words at most. -/

theorem Token.over_text_of_beq {κ : Type} [Vocabulary κ] {a b : Token κ} (h : (a == b) = true)
    (ha : Over InLine a.text) : Over InLine b.text :=
  ha.of_lower_eq (beq_iff.mp h)

theorem Token.over_unwords_of_beq {κ : Type} [Vocabulary κ] {ts ts' : List (Token κ)}
    (h : (ts == ts') = true) (hts : Over InLine (unwords (ts.map text))) :
    Over InLine (unwords (ts'.map text)) := by
  rw [over_unwords, List.forall_mem_map] at hts ⊢
  exact forall_of_forall₂ (forall₂_beq_iff.mp h) (fun _ _ ha hab => over_text_of_beq hab ha) hts

theorem Candidate.Options.pairs_perm_of_beq {o o' : Options} (h : (o == o') = true) :
    o.pairs.Perm o'.pairs := by
  obtain ⟨haddress, hport, hrole, hextensions⟩ := Options.beq_iff.mp h
  rw [pairs, pairs, haddress, hport, hrole]
  exact (OrderedMap.perm_of_beq hextensions).append_left _

theorem Candidate.over_text_of_beq {c c' : Candidate} (h : (c == c') = true)
    (hc : Over InLine c.text) : Over InLine c'.text := by
  obtain ⟨hfoundation, hcomponent, htransport, hpriority, haddress, hport, hkind, hoptions⟩ :=
    Candidate.beq_iff.mp h
  have hpairs := (Options.pairs_perm_of_beq hoptions).flatMap_right fun pair => [pair.1, pair.2]
  simp only [text, over_unwords, List.forall_mem_append, List.forall_mem_cons, hfoundation,
    hcomponent, htransport, hpriority, haddress, hport] at hc ⊢
  obtain ⟨⟨h₁, h₂, h₃, h₄, h₅, h₆, h₇, hc, -⟩, hwords⟩ := hc
  exact ⟨⟨h₁, h₂, h₃, h₄, h₅, h₆, h₇, Token.over_text_of_beq hkind hc, List.forall_mem_nil _⟩,
    fun w hw => hwords w (hpairs.mem_iff.mpr hw)⟩

theorem RtpMap.over_text_of_beq {m m' : RtpMap} (h : (m == m') = true)
    (hm : Over InLine m.text) : Over InLine m'.text := by
  obtain ⟨hpayloadType, hcodec, hclockRate, hchannels⟩ := RtpMap.beq_iff.mp h
  simp only [text, over_append, over_cons, hpayloadType, hclockRate, hchannels] at hm ⊢
  exact hm.imp_left fun hm => ⟨hm.1.imp_right (.imp_right (Token.over_text_of_beq hcodec)), hm.2⟩

theorem CertificateHash.over_text_of_beq {c c' : CertificateHash} (h : (c == c') = true)
    (hc : Over InLine c.text) : Over InLine c'.text := by
  obtain ⟨hfunction, hfingerprint⟩ := CertificateHash.beq_iff.mp h
  rw [text, over_append] at hc ⊢
  exact ⟨Token.over_text_of_beq hfunction hc.1, hfingerprint ▸ hc.2⟩

theorem MediaGroup.over_text_of_beq {g g' : MediaGroup} (h : (g == g') = true)
    (hg : Over InLine g.text) : Over InLine g'.text := by
  obtain ⟨hmeaning, hmids⟩ := MediaGroup.beq_iff.mp h
  rw [text, over_unwords, List.forall_mem_cons] at hg ⊢
  exact ⟨Token.over_text_of_beq hmeaning hg.1, hmids ▸ hg.2⟩

theorem SourceGroup.over_text_of_beq {g g' : SourceGroup} (h : (g == g') = true)
    (hg : Over InLine g.text) : Over InLine g'.text := by
  obtain ⟨hmeaning, hsources⟩ := SourceGroup.beq_iff.mp h
  rw [text, over_unwords, List.forall_mem_cons] at hg ⊢
  exact ⟨Token.over_text_of_beq hmeaning hg.1, hsources ▸ hg.2⟩

theorem Simulcast.over_text_of_beq {s s' : Simulcast} (h : (s == s') = true)
    (hs : Over InLine s.text) : Over InLine s'.text := by
  have hperm : s.streams.entries.Perm s'.streams.entries := OrderedMap.perm_of_beq h
  rw [text, over_unwords] at hs ⊢
  exact fun w hw => hs w ((hperm.map _).mem_iff.mpr hw)

/-! ### Attributes of all kinds -/

namespace Attribute

/-- Attributes that are the same, or equal in a kind that has tokens or
mappings. -/
inductive Similar : Attribute → Attribute → Prop
  | refl (a : Attribute) : Similar a a
  | candidate {c c' : Candidate} (h : (c == c') = true) : Similar (candidate c) (candidate c')
  | certificate {c c' : CertificateHash} (h : (c == c') = true) :
    Similar (certificate c) (certificate c')
  | group {g g' : MediaGroup} (h : (g == g') = true) : Similar (group g) (group g')
  | iceOptions {os os' : List (Token IceOption)} (h : (os == os') = true) :
    Similar (iceOptions os) (iceOptions os')
  | rtpMap {m m' : RtpMap} (h : (m == m') = true) : Similar (rtpMap m) (rtpMap m')
  | sourceGroup {g g' : SourceGroup} (h : (g == g') = true) :
    Similar (sourceGroup g) (sourceGroup g')
  | simulcast {s s' : Simulcast} (h : (s == s') = true) : Similar (simulcast s) (simulcast s')

variable {a b : Attribute}

theorem similar_of_beq (h : (a == b) = true) : Similar a b := by
  change instBEqAttribute.beq a b = true at h
  unfold instBEqAttribute.beq at h
  split at h
  · split at h
    case candidate => exact .candidate h
    case certificate => exact .certificate h
    case group => exact .group h
    case iceOptions => exact .iceOptions h
    case rtpMap => exact .rtpMap h
    case sourceGroup => exact .sourceGroup h
    case simulcast => exact .simulcast h
    -- In all other kinds the values are compared as they are.
    all_goals simp only [Bool.and_eq_true, beq_iff_eq] at h
    case label | quantity | other =>
      obtain ⟨rfl, rfl⟩ := h
      exact .refl _
    all_goals
      obtain rfl := h
      exact .refl _
  · exact nomatch h

theorem Similar.beq (h : Similar a b) : (a == b) = true := by
  cases h with
  | refl => exact BEq.rfl
  | _ h => exact h

theorem Similar.name_eq (h : Similar a b) : a.name = b.name := by
  cases h <;> rfl

/-- Equal attributes are written on one line both or neither. -/
theorem Similar.over_text (h : Similar a b) (ha : Over InLine a.text) : Over InLine b.text := by
  rw [over_text_iff] at ha ⊢
  refine ⟨h.name_eq ▸ ha.1, fun t ht => ?_⟩
  cases h with
  | refl => exact ha.2 t ht
  | candidate h => exact Option.some.inj ht ▸ Candidate.over_text_of_beq h (ha.2 _ rfl)
  | certificate h => exact Option.some.inj ht ▸ CertificateHash.over_text_of_beq h (ha.2 _ rfl)
  | group h => exact Option.some.inj ht ▸ MediaGroup.over_text_of_beq h (ha.2 _ rfl)
  | iceOptions h => exact Option.some.inj ht ▸ Token.over_unwords_of_beq h (ha.2 _ rfl)
  | rtpMap h => exact Option.some.inj ht ▸ RtpMap.over_text_of_beq h (ha.2 _ rfl)
  | sourceGroup h => exact Option.some.inj ht ▸ SourceGroup.over_text_of_beq h (ha.2 _ rfl)
  | simulcast h => exact Option.some.inj ht ▸ Simulcast.over_text_of_beq h (ha.2 _ rfl)

end Attribute

end OfferAnswer
