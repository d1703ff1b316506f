/-
OfferAnswer/Proofs/Bundle/Media.lean

Media of a bundle, written as sections and read again.

The attributes of a written medium fall into stretches of one subject each, so
that every view finds its stretch as it was written.  Only the streams of a
simulcast may be read differently, and no medium looks at them; the medium is
found again whatever they are read as (`ofSection_toSection`).
-/
import OfferAnswer.Bundle.Media
import OfferAnswer.Capability
import OfferAnswer.Proofs.Bundle.Encoding
import OfferAnswer.Proofs.Bundle.Joining
import OfferAnswer.Proofs.Document.Sound

namespace OfferAnswer

open Text Outcome AttributeList

namespace RtpMedia

variable {m : RtpMedia} {s : MediaSection} {transport : List Attribute}

/-! ### What reading assures -/

/-- A header extension that has neither a direction nor attributes. -/
def extensionMap (e : Text × Int) : ExtensionMap where
  id := e.2
  uri := e.1
  direction := none
  attributes := []

/-- What reading assures of a medium. -/
structure Sound (m : RtpMedia) : Prop where
  kind_canonical : m.kind.IsCanonical
  kind : IsWord InLine m.kind.text
  protocol_canonical : m.protocol.IsCanonical
  protocol : IsWord InLine m.protocol.text
  mid : Over InLine m.mid
  bandwidths : ∀ e ∈ m.bandwidths.entries, (Bandwidth.mk e.1 e.2).WellFormed InLine
  payloads : Payload.Joined m.payloads
  encodings : Encoding.Listed m.encodings
  extensions : ∀ e ∈ m.extensions.entries, (extensionMap e).WellFormed InLine

theorem extensionMap_wellFormed_of_mem {as : AttributeList} (has : ∀ a ∈ as, a.WellFormed InLine)
    {e : Text × Int} (he : e ∈ (extensionsOf as).entries) : (extensionMap e).WellFormed InLine := by
  obtain ⟨x, hx, rfl⟩ := List.mem_map.mp (OrderedMap.mem_of_mem_ofList he)
  have hmem : .extension x ∈ as :=
    mem_of_mem_filterMap Attribute.extension?_eq_some (List.mem_of_mem_filter hx)
  have hwf : x.WellFormed InLine := has _ hmem
  exact ⟨hwf.id, hwf.uri, List.forall_mem_nil _⟩

theorem sound_of_ofSection (hs : s.Sound) (h : ofSection s = .ok m) : m.Sound := by
  have hmedium : s.medium.WellFormed InLine :=
    hs.fields (.medium s.medium) (by simp [MediaSection.fields])
  have has := hs.attributes
  unfold ofSection at h
  split at h
  · simp at h
  · next mid hmid =>
    obtain ⟨ps, hps, h⟩ := bind_eq_ok.mp h
    obtain ⟨d, -, h⟩ := bind_eq_ok.mp h
    obtain rfl := pure_eq_ok.mp h
    exact {
      kind_canonical := hmedium.kind_canonical
      kind := hmedium.kind
      protocol_canonical := hmedium.protocol_canonical
      protocol := hmedium.protocol
      mid := has _ (mem_of_findSome? Attribute.labelled?_eq_some hmid)
      bandwidths := List.forall_mem_map.mpr hs.spelled
      payloads := Payload.joined_of_ofAttributes has (mapError_eq_ok.mp hps)
      encodings := Encoding.listed_ofAttributes has
      extensions := fun e he => extensionMap_wellFormed_of_mem has he }

/-! ### The other end -/

theorem Sound.answer (h : m.Sound) : m.answer.Sound :=
  { h with
    bandwidths := List.forall_mem_nil _
    encodings := h.encodings.answer }

end RtpMedia

theorem Payload.WellFormed.restrict {p : Payload} (h : p.WellFormed) (c : Capability) :
    (c.restrictPayload p).WellFormed := by
  refine ⟨h.rtpMap, h.isMedia, h.parameters, fun f hf => h.feedback f ?_, h.retransmission⟩
  exact (List.filter_sublist.map _).subset hf

theorem Payload.Joined.restrict {ps : List Payload} (h : Joined ps) (c : Capability) :
    Joined ((ps.filter c.supports).map c.restrictPayload) := by
  have hmem : ∀ q ∈ (ps.filter c.supports).map c.restrictPayload,
      ∃ p ∈ ps, q = c.restrictPayload p :=
    List.forall_mem_map.mpr fun p hp => ⟨p, List.mem_of_mem_filter hp, rfl⟩
  refine ⟨fun q hq => ?_, fun q hq q' hq' => ?_, fun q hq q' hq' => ?_⟩
  · obtain ⟨p, hp, rfl⟩ := hmem q hq
    exact (h.wellFormed p hp).restrict c
  · obtain ⟨p, hp, rfl⟩ := hmem q hq
    obtain ⟨p', hp', rfl⟩ := hmem q' hq'
    exact h.apart p hp p' hp'
  · obtain ⟨p, hp, rfl⟩ := hmem q hq
    obtain ⟨p', hp', rfl⟩ := hmem q' hq'
    exact h.single p hp p' hp'

namespace RtpMedia

variable {m : RtpMedia} {s : MediaSection} {transport : List Attribute} {ss : List Simulcast}

theorem Sound.toCapability (h : m.Sound) : m.toCapability.Sound :=
  { h with
    payloads := h.payloads.restrict _
    extensions := fun e he => h.extensions e (List.mem_of_mem_filter he) }

/-! ### Stretches of attributes -/

def controlPort : ControlPort where
  port := discardPort
  network := some .internet
  family := some .ip4
  address := some anyAddress

def extensionAttributes (m : RtpMedia) : List Attribute :=
  m.extensions.entries.map fun e => .extension (extensionMap e)

/-- The attributes of a medium on a transport, and in the end some simulcasts. -/
def attributesWith (m : RtpMedia) (transport : List Attribute) (ss : List Simulcast) :
    List Attribute :=
  [.controlPort controlPort] ++ transport ++ [.label .mid m.mid] ++ m.extensionAttributes
    ++ m.direction.toAttribute :: m.flags
    ++ m.payloads.flatMap Payload.attributes
    ++ m.encodings.flatMap Encoding.ownAttributes
    ++ ss.map .simulcast

/-- The simulcast of a medium, if it has streams. -/
def simulcasts (m : RtpMedia) : List Simulcast :=
  if (Encoding.simulcastStreams m.encodings).isEmpty then []
  else [⟨Encoding.simulcastStreams m.encodings⟩]

theorem attributes_eq (m : RtpMedia) (transport : List Attribute) :
    m.attributes transport = m.attributesWith transport m.simulcasts := by
  by_cases h : (Encoding.simulcastStreams m.encodings).isEmpty <;>
    simp [attributes, attributesWith, simulcasts, Encoding.attributes, extensionAttributes,
      extensionMap, controlPort, h]

theorem subject_of_mem_payload {p : Payload} : ∀ a ∈ p.attributes, a.subject = .payload := by
  simp only [Payload.attributes, List.forall_mem_cons, List.forall_mem_append]
  refine ⟨⟨⟨rfl, List.forall_mem_map.mpr fun _ _ => rfl⟩, ?_⟩, ?_⟩
  · split <;> simp [Attribute.subject]
  · cases p.retransmission <;> simp [Payload.retransmissionAttributes, Attribute.subject]

theorem subject_of_mem_encoding {e : Encoding} : ∀ a ∈ e.ownAttributes, a.subject = .encoding := by
  rcases e with ⟨id, d⟩ | ⟨cname, s, - | r⟩ <;>
    simp [Encoding.ownAttributes, Encoding.nameAttribute, Attribute.subject]

theorem subject_of_mem_flags : ∀ a ∈ m.direction.toAttribute :: m.flags, a.subject = .medium := by
  simp only [flags, List.forall_mem_cons, List.forall_mem_append]
  refine ⟨rfl, ⟨?_, ?_⟩, ?_⟩ <;> split <;> simp [Attribute.subject]

/-- The stretches of the attributes, by their subjects. -/
theorem about_attributesWith {σ : Attribute.Subject}
    (ht : ∀ a ∈ transport, a.subject = .transport) (hσ : σ ≠ .medium) :
    about σ (m.attributesWith transport ss)
      = (if .transport = σ then transport else [])
        ++ (if .extension = σ then m.extensionAttributes else [])
        ++ (if .payload = σ then m.payloads.flatMap Payload.attributes else [])
        ++ (if .encoding = σ then m.encodings.flatMap Encoding.ownAttributes else []) := by
  -- What is said of the medium itself is in between the other stretches.
  have hmedium : ∀ {as : AttributeList}, (∀ a ∈ as, a.subject = .medium) → about σ as = [] :=
    fun h => (about_of_forall h).trans (if_neg hσ.symm)
  have hextensions : ∀ a ∈ m.extensionAttributes, a.subject = .extension :=
    List.forall_mem_map.mpr fun _ _ => rfl
  have hpayloads : ∀ a ∈ m.payloads.flatMap Payload.attributes, a.subject = .payload :=
    List.forall_mem_flatMap.mpr fun _ _ => subject_of_mem_payload
  have hencodings : ∀ a ∈ m.encodings.flatMap Encoding.ownAttributes, a.subject = .encoding :=
    List.forall_mem_flatMap.mpr fun _ _ => subject_of_mem_encoding
  have hsimulcasts : ∀ a ∈ ss.map Attribute.simulcast, a.subject = .medium :=
    List.forall_mem_map.mpr fun _ _ => rfl
  rw [attributesWith, about_append, about_append, about_append, about_append, about_append,
    about_append, about_append, hmedium (List.forall_mem_singleton.mpr rfl), about_of_forall ht,
    hmedium (List.forall_mem_singleton.mpr rfl), about_of_forall hextensions,
    hmedium subject_of_mem_flags, about_of_forall hpayloads, about_of_forall hencodings,
    hmedium hsimulcasts, List.nil_append, List.append_nil, List.append_nil, List.append_nil]

section

variable {α : Type} {view : Attribute → Option α} {mk : α → Attribute}
  (hview : ∀ {a x}, view a = some x ↔ a = mk x) (ht : ∀ a ∈ transport, a.subject = .transport)

include hview ht

theorem filterMap_transport (hmk : ∀ x, (mk x).subject = .transport) :
    (m.attributesWith transport ss).filterMap view = transport.filterMap view := by
  rw [← filterMap_about hview hmk, about_attributesWith ht (by decide)]
  simp

theorem filterMap_extension (hmk : ∀ x, (mk x).subject = .extension) :
    (m.attributesWith transport ss).filterMap view = m.extensionAttributes.filterMap view := by
  rw [← filterMap_about hview hmk, about_attributesWith ht (by decide)]
  simp

theorem filterMap_payload (hmk : ∀ x, (mk x).subject = .payload) :
    (m.attributesWith transport ss).filterMap view
      = m.payloads.flatMap fun p => p.attributes.filterMap view := by
  rw [← filterMap_about hview hmk, about_attributesWith ht (by decide), ← List.filterMap_flatMap]
  simp

theorem filterMap_encoding (hmk : ∀ x, (mk x).subject = .encoding) :
    (m.attributesWith transport ss).filterMap view
      = (m.encodings.flatMap Encoding.ownAttributes).filterMap view := by
  rw [← filterMap_about hview hmk, about_attributesWith ht (by decide)]
  simp

end

/-! ### Reading again -/

section

variable (ht : ∀ a ∈ transport, a.subject = .transport)

include ht

theorem lines_payloads : Payload.Lines (m.attributesWith transport ss) m.payloads where
  rtpMaps := by
    rw [rtpMaps, filterMap_payload Attribute.rtpMap?_eq_some ht fun _ => rfl]
    exact List.flatMap_congr fun p _ => p.filterMap_rtpMap?
  parameters := by
    rw [formatParameters, filterMap_payload Attribute.formatParameters?_eq_some ht fun _ => rfl]
    exact List.flatMap_congr fun p _ => p.filterMap_formatParameters?
  feedback := by
    rw [feedback, filterMap_payload Attribute.feedback?_eq_some ht fun _ => rfl]
    exact List.flatMap_congr fun p _ => p.filterMap_feedback?

theorem lines_encodings : Encoding.Lines (m.attributesWith transport ss) m.encodings where
  streamIds := filterMap_encoding Attribute.streamId?_eq_some ht fun _ => rfl
  sources := filterMap_encoding Attribute.source?_eq_some ht fun _ => rfl
  sourceGroups := filterMap_encoding Attribute.sourceGroup?_eq_some ht fun _ => rfl

theorem extensionsOf_attributesWith :
    extensionsOf (m.attributesWith transport ss) = m.extensions := by
  have hextensions : AttributeList.extensions (m.attributesWith transport ss)
      = m.extensions.entries.map extensionMap := by
    rw [AttributeList.extensions,
      filterMap_extension Attribute.extension?_eq_some ht fun _ => rfl, extensionAttributes,
      List.filterMap_map]
    exact congrFun List.filterMap_eq_map' _
  rw [extensionsOf, hextensions, List.filter_eq_self.mpr ?_, List.map_map]
  · exact (congrArg OrderedMap.ofList (List.map_id _)).trans
      (OrderedMap.ofList_entries m.extensions)
  · exact List.forall_mem_map.mpr fun _ _ => rfl

/-- The flags among the attributes. -/
theorem hasFlag_attributesWith {f : Attribute.Flag} :
    hasFlag (m.attributesWith transport ss) f = true
      ↔ .flag f ∈ m.direction.toAttribute :: m.flags := by
  -- Flags are found by their names, and only names that are not registered could be taken
  -- for them.
  have hkind : ∀ a ∈ m.attributesWith transport ss, a.kind? ≠ none := by
    have hnone : about .unregistered (m.attributesWith transport ss) = [] := by
      rw [about_attributesWith ht (by decide)]
      rfl
    intro a ha hk
    exact List.filter_eq_nil_iff.mp hnone a ha (by simp [Attribute.subject_of_kind? hk])
  have hother : ∀ {as : List Attribute} {σ}, (∀ a ∈ as, a.subject = σ) → .medium ≠ σ →
      Attribute.flag f ∉ as := fun h hσ hm => hσ (h _ hm)
  have hpayloads : Attribute.flag f ∉ m.payloads.flatMap Payload.attributes :=
    hother (List.forall_mem_flatMap.mpr fun _ _ => subject_of_mem_payload) (by decide)
  have hencodings : Attribute.flag f ∉ m.encodings.flatMap Encoding.ownAttributes :=
    hother (List.forall_mem_flatMap.mpr fun _ _ => subject_of_mem_encoding) (by decide)
  rw [hasFlag_iff hkind, attributesWith]
  simp only [List.mem_append, hother ht (by decide), hpayloads, hencodings, extensionAttributes]
  simp

theorem direction_attributesWith :
    MediaDirection.ofAttributes (m.attributesWith transport ss) = .ok m.direction := by
  have hmem : ∀ d, hasFlag (m.attributesWith transport ss) (.direction d)
      = decide (d = m.direction) := by
    intro d
    rw [Bool.eq_iff_iff, hasFlag_attributesWith ht, decide_eq_true_iff]
    -- No other flag of the medium is a direction.
    have hflags : Attribute.flag (.direction d) ∉ m.flags := by
      simp only [flags, List.mem_append]
      split <;> split <;> split <;> simp
    simp [hflags, MediaDirection.toAttribute]
  rw [MediaDirection.ofAttributes]
  simp only [hmem]
  cases m.direction <;> rfl

theorem mid_attributesWith :
    (m.attributesWith transport ss).findSome? (Attribute.labelled? .mid) = some m.mid := by
  -- The transport stands before the identifier, but has no such label.
  have hnone : transport.findSome? (Attribute.labelled? .mid) = none := by
    refine List.findSome?_eq_none_iff.mpr fun a ha => Option.eq_none_iff_forall_ne_some.mpr ?_
    intro t hlabel
    have hsubject := ht a ha
    rw [Attribute.labelled?_eq_some.mp hlabel] at hsubject
    exact absurd hsubject nofun
  simp only [attributesWith, List.append_assoc, List.singleton_append, List.findSome?_cons,
    List.findSome?_append, hnone]
  rfl

theorem flag_attributesWith {f : Attribute.Flag} {b : Bool}
    (h : .flag f ∈ m.direction.toAttribute :: m.flags ↔ b = true) :
    hasFlag (m.attributesWith transport ss) f = b :=
  Bool.eq_iff_iff.mpr ((hasFlag_attributesWith ht).trans h)

/-- A medium with different payload types is found again in its section, on the
port that stands for none, whatever its simulcast is read as. -/
theorem ofSection_toSection (h : m.Sound) (hd : (m.payloads.map Payload.payloadType).Nodup) :
    ofSection { m.toSection transport with attributes := m.attributesWith transport ss }
      = .ok { m with port := discardPort } := by
  have hpayloads : Payload.ofAttributes (m.payloads.flatMap Payload.formats)
      (m.attributesWith transport ss) = .ok m.payloads :=
    Payload.ofAttributes_formats h.payloads hd (lines_payloads ht)
  have hencodings : Encoding.ofAttributes (m.attributesWith transport ss) = m.encodings :=
    Encoding.ofAttributes_of_lines h.encodings.order (lines_encodings ht)
  -- A limit is written with the kind that it is entered under.
  have hbandwidths : (m.toSection transport).bandwidths.amounts = m.bandwidths := by
    refine OrderedMap.ext ?_
    show (m.bandwidths.entries.map _).map _ = _
    rw [List.map_map]
    exact List.map_id _
  have hmux : hasFlag (m.attributesWith transport ss) .rtcpMux = m.rtcpMux :=
    flag_attributesWith ht (by simp [flags, MediaDirection.toAttribute])
  have hmuxOnly : hasFlag (m.attributesWith transport ss) .rtcpMuxOnly = m.rtcpMuxOnly :=
    flag_attributesWith ht (by simp [flags, MediaDirection.toAttribute])
  have hreduced : hasFlag (m.attributesWith transport ss) .rtcpReducedSize = m.rtcpReducedSize :=
    flag_attributesWith ht (by simp [flags, MediaDirection.toAttribute])
  unfold ofSection
  simp only [mid_attributesWith ht]
  rw [show (m.toSection transport).medium.formats = m.payloads.flatMap Payload.formats from rfl,
    hpayloads, direction_attributesWith ht, hencodings, hbandwidths, extensionsOf_attributesWith ht,
    hmux, hmuxOnly, hreduced]
  rfl

end

end RtpMedia

end OfferAnswer
