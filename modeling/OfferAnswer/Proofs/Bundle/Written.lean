/-
OfferAnswer/Proofs/Bundle/Written.lean

Bundles, written and read again.

A bundle is written as a session that repeats the transport in every medium and
groups the media by their identifiers.  What it is read as differs in two
places: identifiers with blanks in them make a larger group, and streams with
separators in them a larger simulcast.  Bundles look at neither, so a bundle is
found again wherever its text can be read at all (`ofText_text_of_reachable`), and this
takes no more than a payload in every medium and no empty word in an identifier
(`exists_ofText_text_iff`).
-/
import OfferAnswer.Proofs.Bundle.Reachable
import OfferAnswer.Proofs.Document.Reread

namespace OfferAnswer

open Text Outcome AttributeList

/-! ### Media -/

namespace Attribute

/-- The streams of a simulcast may be read as more of them. -/
theorem legible_simulcast {s : Simulcast} (h : s.Legible InLine) :
    (Attribute.simulcast s).Legible ∧ ∃ s', (Attribute.simulcast s).reread = .simulcast s' := by
  obtain ⟨s', hs', -⟩ := s.exists_read_text h
  have hread : ofText (Attribute.simulcast s).text = .ok (.simulcast s') :=
    (ofText_eq_ok_iff (k := .simulcast) rfl nofun rfl).mpr (map_eq_ok.mpr ⟨s', hs', rfl⟩)
  have hover : Over InLine (Attribute.simulcast s).text := by
    refine over_text_iff.mpr ⟨over_name_of_kind? (k := .simulcast) rfl, fun t ht => ?_⟩
    exact Option.some.inj ht ▸ s.over_text h
  exact ⟨legible_of_ofText hover hread, s', reread_of_ofText hread⟩

end Attribute

namespace RtpMedia

variable {m : RtpMedia} {transport : List Attribute} {ss : List Simulcast}

theorem attributesWith_eq (m : RtpMedia) (transport : List Attribute) (ss : List Simulcast) :
    m.attributesWith transport ss = m.attributesWith transport [] ++ ss.map .simulcast := by
  simp [attributesWith]

theorem Sound.attributesWith (h : m.Sound) (ht : ∀ a ∈ transport, a.WellFormed InLine) :
    ∀ a ∈ m.attributesWith transport [], a.WellFormed InLine := by
  have hport : controlPort.WellFormed InLine :=
    ⟨Decimal.fits_upTo (by decide) (by decide) (by decide),
      .some (isPlainWord_iff.mp (by decide : isPlainWord anyAddress = true)).1.of_plain⟩
  have hflags : ∀ a ∈ m.direction.toAttribute :: m.flags, a.WellFormed InLine := by
    simp only [flags, List.forall_mem_cons, List.forall_mem_append]
    refine ⟨trivial, ⟨?_, ?_⟩, ?_⟩ <;> split <;> simp [Attribute.WellFormed]
  rw [RtpMedia.attributesWith, List.map_nil, List.append_nil]
  simp only [List.forall_mem_append, List.forall_mem_singleton, List.forall_mem_flatMap]
  refine ⟨⟨⟨⟨⟨⟨hport, ht⟩, h.mid⟩, ?_⟩, hflags⟩, ?_⟩, ?_⟩
  · exact List.forall_mem_map.mpr h.extensions
  · exact fun p hp => (h.payloads.wellFormed p hp).attributes
  · exact fun e he => (h.encodings.wellFormed e he).ownAttributes

theorem Sound.simulcasts (h : m.Sound) : ∀ s ∈ m.simulcasts, s.Legible InLine := by
  intro s hs
  unfold RtpMedia.simulcasts at hs
  split at hs
  · simp at hs
  · next hne =>
    obtain rfl := List.mem_singleton.mp hs
    exact Encoding.legible_simulcastStreams h.encodings.wellFormed (by simpa using hne)

/-- What the attributes of a medium are read as. -/
theorem Sound.exists_reread (h : m.Sound) (ht : ∀ a ∈ transport, a.WellFormed InLine) :
    ∃ ss, (m.attributes transport).map Attribute.reread = m.attributesWith transport ss := by
  have hsimulcasts : ∀ s ∈ m.simulcasts, ∃ s', (Attribute.simulcast s).reread = .simulcast s' :=
    fun s hs => (Attribute.legible_simulcast (h.simulcasts s hs)).2
  choose! f hf using hsimulcasts
  refine ⟨m.simulcasts.map f, ?_⟩
  rw [attributes_eq, attributesWith_eq, attributesWith_eq m transport (m.simulcasts.map f),
    List.map_append, Attribute.map_reread (h.attributesWith ht), List.map_map, List.map_map]
  exact congrArg _ (List.map_congr_left hf)

theorem Sound.legible_attributes (h : m.Sound) (ht : ∀ a ∈ transport, a.WellFormed InLine) :
    ∀ a ∈ m.attributes transport, a.Legible := by
  rw [attributes_eq, attributesWith_eq]
  refine List.forall_mem_append.mpr ⟨fun a ha => (h.attributesWith ht a ha).legible, ?_⟩
  exact List.forall_mem_map.mpr fun s hs => (Attribute.legible_simulcast (h.simulcasts s hs)).1

theorem formats_ne_nil_iff (m : RtpMedia) (transport : List Attribute) :
    (m.toSection transport).medium.formats ≠ [] ↔ m.payloads ≠ [] := by
  rw [not_iff_not]
  show m.payloads.flatMap Payload.formats = [] ↔ _
  rw [List.flatMap_eq_nil_iff]
  refine ⟨fun h => List.eq_nil_iff_forall_not_mem.mpr fun p hp => ?_, fun h => by simp [h]⟩
  exact List.cons_ne_nil _ _ (h p hp)

theorem Sound.spelled (h : m.Sound) : (m.toSection transport).medium.Spelled InLine where
  kind_canonical := h.kind_canonical
  kind := h.kind
  port := (Decimal.fits_upTo (by decide) (by decide) (by decide) :
    Decimal.Fits (.upTo 65535) discardPort)
  protocol_canonical := h.protocol_canonical
  protocol := h.protocol
  formats := List.forall_mem_flatMap.mpr fun p _ => by
    rw [p.formats_eq]
    exact List.forall_mem_map.mpr fun t _ => (Decimal.isWord_text t).of_plain
  ports := by simp [toSection]

theorem fields_toSection (m : RtpMedia) (transport : List Attribute) :
    (m.toSection transport).fields
      = [.medium (m.toSection transport).medium, .connection ⟨.internet, .ip4, anyAddress⟩]
        ++ m.bandwidths.entries.map (fun e => .bandwidth ⟨e.1, e.2⟩)
        ++ (m.attributes transport).map .attr := by
  simp [MediaSection.fields, toSection, OrderedMap.map, Function.comp_def]

/-- Of the fields of a written medium only the first may not be read. -/
theorem Sound.field_cases (h : m.Sound) (ht : ∀ a ∈ transport, a.WellFormed InLine) :
    ∀ f ∈ (m.toSection transport).fields,
      (DocumentField.media f).Legible ∨ f = .medium (m.toSection transport).medium := by
  have hwf : ∀ {f : MediaField}, f.WellFormed InLine → (DocumentField.media f).Legible :=
    fun hf => DocumentField.WellFormed.legible (f := .media _) hf rfl
  have hconnection : (Connection.mk .internet .ip4 anyAddress).WellFormed InLine :=
    (isPlainWord_iff.mp (by decide : isPlainWord anyAddress = true)).1.of_plain
  rw [fields_toSection]
  simp only [List.forall_mem_append, List.forall_mem_cons, List.forall_mem_map]
  refine ⟨⟨⟨.inr trivial, .inl (hwf hconnection), List.forall_mem_nil _⟩, fun e he => ?_⟩, ?_⟩
  · exact .inl (hwf (h.bandwidths e he))
  · exact fun a ha => .inl (DocumentField.legible_media (h.legible_attributes ht a ha))

/-- Bandwidths are kept under their own kinds. -/
theorem rekeyed_toSection (m : RtpMedia) (transport : List Attribute) :
    (m.toSection transport).bandwidths.rekeyed = (m.toSection transport).bandwidths := by
  have hentries : (m.toSection transport).bandwidths.entries.map (fun e => (e.2.kind, e.2))
      = (m.toSection transport).bandwidths.entries := by
    show (m.bandwidths.entries.map _).map _ = m.bandwidths.entries.map _
    rw [List.map_map]
    rfl
  rw [Bandwidths.rekeyed, hentries]
  exact OrderedMap.ofList_entries _

/-- What the section of a medium is read as. -/
theorem Sound.exists_reread_toSection (h : m.Sound) (ht : ∀ a ∈ transport, a.WellFormed InLine) :
    ∃ ss, (m.toSection transport).reread.rekeyed
      = { m.toSection transport with attributes := m.attributesWith transport ss } := by
  obtain ⟨ss, hss⟩ := h.exists_reread ht
  refine ⟨ss, ?_⟩
  show MediaSection.mk _ _ _ (m.toSection transport).bandwidths.rekeyed _
    ((m.attributes transport).map Attribute.reread) = _
  rw [rekeyed_toSection, hss]
  rfl

end RtpMedia

/-! ### Bundles -/

namespace Bundle

variable {b : Bundle}

theorem subject_of_mem_transport : ∀ a ∈ b.transportAttributes, a.subject = .transport := by
  simp only [transportAttributes, List.forall_mem_append, List.forall_mem_map,
    List.forall_mem_cons]
  refine ⟨⟨⟨⟨⟨rfl, rfl, List.forall_mem_nil _⟩, ?_⟩, fun _ _ => rfl⟩, fun _ _ => rfl⟩, rfl,
    List.forall_mem_nil _⟩
  split <;> simp [Attribute.subject]

/-! ### The transport -/

section

variable (b)

/-- What a view finds in the transport, part by part. -/
theorem filterMap_transportAttributes {α : Type} (view : Attribute → Option α) :
    b.transportAttributes.filterMap view
      = (view (.label .iceUser b.iceUser)).toList
        ++ (view (.label .icePassword b.icePassword)).toList
        ++ (if b.iceOptions.isEmpty then [] else (view (.iceOptions b.iceOptions)).toList)
        ++ b.candidates.filterMap (fun c => view (.candidate c))
        ++ b.certificates.filterMap (fun h => view (.certificate h))
        ++ (view (.setup b.role)).toList := by
  -- The parts that are always there have one attribute each.
  have hsingle : ∀ a, [a].filterMap view = (view a).toList := fun a => by
    cases h : view a <;> simp [h]
  have hoptions :
      (if b.iceOptions.isEmpty then [] else [Attribute.iceOptions b.iceOptions]).filterMap view
        = if b.iceOptions.isEmpty then [] else (view (.iceOptions b.iceOptions)).toList := by
    split
    · rfl
    · exact hsingle _
  have huser : [Attribute.label .iceUser b.iceUser, .label .icePassword b.icePassword].filterMap
      view = (view (.label .iceUser b.iceUser)).toList
        ++ (view (.label .icePassword b.icePassword)).toList := by
    rw [← hsingle, ← hsingle, ← List.filterMap_append]
    rfl
  simp only [transportAttributes, List.filterMap_append, huser, hoptions, hsingle,
    List.filterMap_map, Function.comp_def]

theorem filterMap_iceUser :
    b.transportAttributes.filterMap (Attribute.labelled? .iceUser) = [b.iceUser] := by
  simp [filterMap_transportAttributes, Attribute.labelled?]

theorem filterMap_icePassword :
    b.transportAttributes.filterMap (Attribute.labelled? .icePassword) = [b.icePassword] := by
  simp [filterMap_transportAttributes, Attribute.labelled?]

theorem filterMap_iceOptions : b.transportAttributes.filterMap Attribute.iceOptions?
    = if b.iceOptions.isEmpty then [] else [b.iceOptions] := by
  simp [filterMap_transportAttributes, Attribute.iceOptions?]

theorem filterMap_candidate :
    b.transportAttributes.filterMap Attribute.candidate? = b.candidates := by
  simp [filterMap_transportAttributes, Attribute.candidate?]

theorem filterMap_certificate :
    b.transportAttributes.filterMap Attribute.certificate? = b.certificates := by
  simp [filterMap_transportAttributes, Attribute.certificate?]

theorem filterMap_setup : b.transportAttributes.filterMap Attribute.setup? = [b.role] := by
  simp [filterMap_transportAttributes, Attribute.setup?]

end

/-! ### The session itself -/

/-- The group of all media. -/
def bundleGroup (b : Bundle) : MediaGroup where
  meaning := .known .bundle
  mids := b.media.map RtpMedia.mid

/-- The attributes of the session itself, with some groups. -/
def sessionAttributesWith (b : Bundle) (gs : List MediaGroup) : List Attribute :=
  (if b.iceLite then [.flag .iceLite] else []) ++ gs.map .group
    ++ (if b.mixedExtensions then [.flag .extmapAllowMixed] else [])

theorem sessionAttributes_eq (h : b.media ≠ []) :
    b.sessionAttributes = b.sessionAttributesWith [b.bundleGroup] := by
  simp [sessionAttributes, sessionAttributesWith, bundleGroup, h]

theorem mem_sessionAttributesWith {gs : List MediaGroup} {a : Attribute}
    (h : a ∈ b.sessionAttributesWith gs) : (∃ f, a = .flag f) ∨ ∃ g ∈ gs, a = .group g := by
  simp only [sessionAttributesWith, List.mem_append, List.mem_map] at h
  rcases h with (h | ⟨g, hg, rfl⟩) | h
  · split at h
    · exact .inl ⟨_, List.mem_singleton.mp h⟩
    · simp at h
  · exact .inr ⟨g, hg, rfl⟩
  · split at h
    · exact .inl ⟨_, List.mem_singleton.mp h⟩
    · simp at h

/-- The session itself says nothing of the transport. -/
theorem filterMap_sessionAttributesWith {gs : List MediaGroup} {α : Type}
    {view : Attribute → Option α} {mk : α → Attribute}
    (hview : ∀ {a x}, view a = some x ↔ a = mk x) (hmk : ∀ x, (mk x).subject = .transport) :
    (b.sessionAttributesWith gs).filterMap view = [] := by
  have hmedium : ∀ a ∈ b.sessionAttributesWith gs, a.subject = .medium := by
    intro a ha
    rcases mem_sessionAttributesWith ha with ⟨f, rfl⟩ | ⟨g, -, rfl⟩ <;> rfl
  rw [← filterMap_about hview hmk, about_of_forall hmedium]
  rfl

theorem hasFlag_sessionAttributesWith {gs : List MediaGroup} {f : Attribute.Flag} :
    hasFlag (b.sessionAttributesWith gs) f = true ↔ .flag f ∈ b.sessionAttributesWith gs := by
  refine hasFlag_iff fun a ha => ?_
  rcases mem_sessionAttributesWith ha with ⟨f, rfl⟩ | ⟨g, -, rfl⟩ <;> simp [Attribute.kind?]

/-- The group can be read if no identifier has an empty word in it. -/
theorem exists_ofText_group_iff (h : b.media ≠ []) :
    (∃ a, Attribute.ofText (Attribute.group b.bundleGroup).text = .ok a)
      ↔ ∀ m ∈ b.media, [] ∉ words m.mid := by
  have hmeaning : IsWord IsPlain b.bundleGroup.meaning.text :=
    Vocabulary.isWord_spelling GroupMeaning.bundle
  have hmids : b.bundleGroup.mids ≠ [] := by simpa [bundleGroup] using h
  have hforall : (∀ t ∈ b.bundleGroup.mids, [] ∉ words t) ↔ ∀ m ∈ b.media, [] ∉ words m.mid :=
    List.forall_mem_map
  rw [← hforall, ← MediaGroup.exists_read_text_iff hmeaning.blank_not_mem hmeaning.ne_nil hmids]
  simp only [Attribute.ofText_eq_ok_iff (a := .group b.bundleGroup) (k := .group) rfl nofun rfl]
  constructor
  · rintro ⟨a, ha⟩
    obtain ⟨g, hg, -⟩ := map_eq_ok.mp ha
    exact ⟨g, hg⟩
  · rintro ⟨g, hg⟩
    exact ⟨.group g, map_eq_ok.mpr ⟨g, hg, rfl⟩⟩

theorem Sound.over_group (h : b.Sound) : Over InLine (Attribute.group b.bundleGroup).text := by
  refine Attribute.over_text_iff.mpr
    ⟨Attribute.over_name_of_kind? (k := .group) rfl, fun t ht => ?_⟩
  obtain rfl := Option.some.inj ht
  refine over_unwords.mpr (List.forall_mem_cons.mpr ⟨?_, ?_⟩)
  · exact (Vocabulary.isWord_spelling GroupMeaning.bundle).chars.of_plain
  · exact List.forall_mem_map.mpr fun m hm => (h.media m hm).mid

theorem Sound.legible_group (h : b.Sound) (hmids : ∀ m ∈ b.media, [] ∉ words m.mid) :
    (Attribute.group b.bundleGroup).Legible
      ∧ ∃ g, (Attribute.group b.bundleGroup).reread = .group g := by
  obtain ⟨a, ha⟩ := (exists_ofText_group_iff h.media_ne_nil).mpr hmids
  obtain ⟨g, -, rfl⟩ :=
    map_eq_ok.mp ((Attribute.ofText_eq_ok_iff (k := .group) rfl nofun rfl).mp ha)
  exact ⟨Attribute.legible_of_ofText h.over_group ha, g, Attribute.reread_of_ofText ha⟩

/-- What the attributes of the session itself are read as. -/
theorem Sound.exists_reread (h : b.Sound) (hmids : ∀ m ∈ b.media, [] ∉ words m.mid) :
    ∃ gs, b.sessionAttributes.map Attribute.reread = b.sessionAttributesWith gs := by
  obtain ⟨-, g, hg⟩ := h.legible_group hmids
  have hflag : ∀ f, (Attribute.flag f).reread = .flag f := fun _ =>
    Attribute.WellFormed.reread trivial
  refine ⟨[g], ?_⟩
  rw [sessionAttributes_eq h.media_ne_nil]
  by_cases hl : b.iceLite <;> by_cases hx : b.mixedExtensions <;>
    simp [sessionAttributesWith, hl, hx, hg, hflag]

/-! ### Reading again -/

/-- The fields of a written bundle. -/
theorem fields_toSession (b : Bundle) : b.toSession.draft.fields
    = [.session (.version ['0']), .session (.origin b.origin), .session (.name none),
        .time (.active ⟨0, 0⟩)]
      ++ b.sessionAttributes.map (fun a => .session (.attr a))
      ++ b.media.flatMap fun m => (m.toSection b.transportAttributes).fields.map .media := by
  simp [toSession, Session.draft, Draft.fields, Draft.ownBefore, Draft.ownAfter,
    TimeSection.fields, TimeSection.ofActive, OrderedMap.empty, List.flatMap_map]

/-- Of the fields of a written bundle only the group and the media themselves
may not be read. -/
theorem Sound.field_cases (h : b.Sound) : ∀ f ∈ b.toSession.draft.fields, f.Legible
    ∨ f = .session (.attr (.group b.bundleGroup))
    ∨ ∃ m ∈ b.media, f = .media (.medium (m.toSection b.transportAttributes).medium) := by
  rw [fields_toSession]
  simp only [List.forall_mem_append, List.forall_mem_cons, List.forall_mem_map,
    List.forall_mem_flatMap]
  refine ⟨⟨⟨?_, ?_, ?_, ?_, List.forall_mem_nil _⟩, fun a ha => ?_⟩, fun m hm f hf => ?_⟩
  · exact .inl (DocumentField.WellFormed.legible (f := .session (.version _)) rfl rfl)
  · exact .inl (DocumentField.WellFormed.legible (f := .session (.origin _)) h.origin rfl)
  · exact .inl (DocumentField.WellFormed.legible (f := .session (.name none)) nofun rfl)
  · have hactive : (TimeField.active ⟨0, 0⟩).WellFormed := ⟨le_refl 0, le_refl 0⟩
    exact .inl (DocumentField.WellFormed.legible (f := .time (.active _)) hactive rfl)
  · -- the attributes of the session itself: flags, and the group
    rw [sessionAttributes_eq h.media_ne_nil] at ha
    rcases mem_sessionAttributesWith ha with ⟨f, rfl⟩ | ⟨g, hg, rfl⟩
    · exact .inl (DocumentField.legible_session (Attribute.WellFormed.legible trivial))
    · exact .inr (.inl (by rw [List.mem_singleton.mp hg]))
  · rcases (h.media m hm).field_cases h.transport f hf with hf | rfl
    · exact .inl hf
    · exact .inr (.inr ⟨m, hm, rfl⟩)

theorem Sound.over_fields (h : b.Sound) : ∀ f ∈ b.toSession.draft.fields, Over InLine f.value := by
  intro f hf
  rcases h.field_cases f hf with hf | rfl | ⟨m, hm, rfl⟩
  · exact hf.chars
  · exact h.over_group
  · exact Medium.over_text (h.media m hm).spelled

theorem Sound.legible_fields (h : b.Sound)
    (hm : ∀ m ∈ b.media, m.payloads ≠ [] ∧ [] ∉ words m.mid) :
    ∀ f ∈ b.toSession.draft.fields, f.Legible := by
  intro f hf
  rcases h.field_cases f hf with hf | rfl | ⟨m, hmem, rfl⟩
  · exact hf
  · exact DocumentField.legible_session (h.legible_group fun m hmem => (hm m hmem).2).1
  · have hne := (m.formats_ne_nil_iff b.transportAttributes).mpr (hm m hmem).1
    exact DocumentField.WellFormed.legible (f := .media (.medium _))
      ⟨(h.media m hmem).spelled, hne⟩ rfl

/-- A written bundle is accepted as a session if and only if every medium has a
payload, and no identifier has an empty word in it. -/
theorem Sound.exists_ofText_text_iff (h : b.Sound) : (∃ s, Session.ofText b.text = .ok s) ↔
    ∀ m ∈ b.media, m.payloads ≠ [] ∧ [] ∉ words m.mid := by
  have hiff := Session.exists_ofText_text_iff h.over_fields
  refine hiff.trans ⟨fun hread => ?_, fun hm f hf => ⟨_, (h.legible_fields hm f hf).readField⟩⟩
  -- The group tells of the identifiers, and the field of each medium of its payloads.
  have hmids : ∀ m ∈ b.media, [] ∉ words m.mid := by
    refine (exists_ofText_group_iff h.media_ne_nil).mp ?_
    have hmem : .session (.attr (.group b.bundleGroup)) ∈ b.toSession.draft.fields := by
      rw [fields_toSession, sessionAttributes_eq h.media_ne_nil]
      simp [sessionAttributesWith]
    obtain ⟨g, hg⟩ := hread _ hmem
    obtain ⟨f, hf, -⟩ := map_eq_ok.mp hg
    obtain ⟨a, ha, -⟩ := map_eq_ok.mp hf
    exact ⟨a, mapError_eq_ok.mp ha⟩
  refine fun m hm => ⟨?_, hmids m hm⟩
  have hmem : .media (.medium (m.toSection b.transportAttributes).medium)
      ∈ b.toSession.draft.fields := by
    rw [fields_toSession]
    refine List.mem_append_right _ (List.mem_flatMap.mpr ⟨m, hm, ?_⟩)
    exact List.mem_map_of_mem (by simp [MediaSection.fields])
  obtain ⟨g, hg⟩ := hread _ hmem
  obtain ⟨f, hf, -⟩ := map_eq_ok.mp hg
  obtain ⟨m', hm', -⟩ := map_eq_ok.mp hf
  exact (m.formats_ne_nil_iff _).mp
    ((Medium.exists_read_text_iff (h.media m hm).spelled).mp ⟨m', hm'⟩)

/-- What a first medium and the session itself say of the transport. -/
theorem findSome?_transport {m : RtpMedia} {ss : List Simulcast} {gs : List MediaGroup} {α : Type}
    {view : Attribute → Option α} {mk : α → Attribute}
    (hview : ∀ {a x}, view a = some x ↔ a = mk x) (hmk : ∀ x, (mk x).subject = .transport) :
    (m.attributesWith b.transportAttributes ss ++ b.sessionAttributesWith gs).findSome? view
      = (b.transportAttributes.filterMap view).head? := by
  rw [← List.head?_filterMap, List.filterMap_append, filterMap_sessionAttributesWith hview hmk,
    RtpMedia.filterMap_transport hview subject_of_mem_transport hmk, List.append_nil]

/-- Everything but the media is found again in the first of them and in the
session itself. -/
theorem ofParts_eq {s : Session} {first : MediaSection} {m : RtpMedia} {ss : List Simulcast}
    {gs : List MediaGroup} (ms : List RtpMedia) (horigin : s.origin = b.origin)
    (hfirst : first.attributes = m.attributesWith b.transportAttributes ss)
    (hsession : s.attributes = b.sessionAttributesWith gs) :
    ofParts s first b.iceUser b.icePassword ms = { b with media := ms } := by
  have hlite : hasFlag (b.sessionAttributesWith gs) .iceLite = b.iceLite := by
    rw [Bool.eq_iff_iff, hasFlag_sessionAttributesWith]
    simp [sessionAttributesWith]
  have hmixed : hasFlag (b.sessionAttributesWith gs) .extmapAllowMixed = b.mixedExtensions := by
    rw [Bool.eq_iff_iff, hasFlag_sessionAttributesWith]
    simp [sessionAttributesWith]
  have hnotMixed :
      hasFlag (m.attributesWith b.transportAttributes ss) .extmapAllowMixed = false :=
    RtpMedia.flag_attributesWith subject_of_mem_transport
      (by simp [RtpMedia.flags, MediaDirection.toAttribute])
  have hoptions : ((b.transportAttributes.filterMap Attribute.iceOptions?).head?).getD []
      = b.iceOptions := by
    rw [filterMap_iceOptions]
    split
    · next he => simpa using he.symm
    · rfl
  have hcandidates : (m.attributesWith b.transportAttributes ss).filterMap Attribute.candidate?
      = b.candidates :=
    (RtpMedia.filterMap_transport Attribute.candidate?_eq_some subject_of_mem_transport
      fun _ => rfl).trans b.filterMap_candidate
  have hcertificates : (m.attributesWith b.transportAttributes ss).filterMap Attribute.certificate?
      = b.certificates :=
    (RtpMedia.filterMap_transport Attribute.certificate?_eq_some subject_of_mem_transport
      fun _ => rfl).trans b.filterMap_certificate
  -- Certificates are collected from both levels, but written in the media only.
  have hnone : (b.sessionAttributesWith gs).filterMap Attribute.certificate? = [] :=
    filterMap_sessionAttributesWith Attribute.certificate?_eq_some fun _ => rfl
  rw [ofParts, horigin, hfirst, hsession, AttributeList.candidates, AttributeList.certificates,
    AttributeList.certificates, hcandidates, hcertificates, hnone, List.append_nil, hlite,
    hnotMixed, hmixed, findSome?_transport Attribute.iceOptions?_eq_some fun _ => rfl, hoptions,
    findSome?_transport Attribute.setup?_eq_some fun _ => rfl, filterMap_setup]
  rfl

/-- A section that a medium on the transport was written to, whatever its simulcast is read as. -/
def IsSectionOf (b : Bundle) (m : RtpMedia) (x : MediaSection) : Prop :=
  ∃ ss, x = { m.toSection b.transportAttributes with
    attributes := m.attributesWith b.transportAttributes ss }

/-- Sections of media that repeat the transport mean the bundle with these media.  Whichever of
them comes first speaks for the transport, for they all say the same. -/
theorem ofSession_of_isSectionOf {s : Session} {gs : List MediaGroup} {ms : List RtpMedia}
    (hne : ms ≠ [])
    (hm : ∀ m ∈ ms, m.Sound ∧ (m.payloads.map Payload.payloadType).Nodup)
    (horigin : s.origin = b.origin) (hattributes : s.attributes = b.sessionAttributesWith gs)
    (hsections : List.Forall₂ b.IsSectionOf ms s.media) :
    ofSession s = .ok { b with media := ms.map fun m => { m with port := 9 } } := by
  have hread : s.media.mapM RtpMedia.ofSection
      = .ok (ms.map fun m => { m with port := 9 }) := by
    rw [mapM_eq_ok, List.forall₂_map_right_iff]
    refine (((List.forall₂_and_left ms s.media).mpr ⟨hm, hsections⟩).imp ?_).flip
    rintro m _ ⟨⟨hsound, hd⟩, ss, rfl⟩
    exact RtpMedia.ofSection_toSection subject_of_mem_transport hsound hd
  obtain ⟨m, ms, rfl⟩ := List.exists_cons_of_ne_nil hne
  obtain ⟨first, rest, ⟨ss, hfirst⟩, -, hmedia⟩ := List.forall₂_cons_left_iff.mp hsections
  have hfirst : first.attributes = m.attributesWith b.transportAttributes ss :=
    congrArg MediaSection.attributes hfirst
  have hview : ∀ {α : Type} {view : Attribute → Option α} {mk : α → Attribute},
      (∀ {a x}, view a = some x ↔ a = mk x) → (∀ x, (mk x).subject = .transport) →
      (first.attributes ++ s.attributes).findSome? view
        = (b.transportAttributes.filterMap view).head? := by
    intro α view mk hview hmk
    rw [hfirst, hattributes]
    exact findSome?_transport hview hmk
  refine ofSession_eq_ok_iff.mpr
    ⟨first, rest, b.iceUser, b.icePassword, _, hmedia, ?_, ?_, hread, ?_⟩
  · rw [hview Attribute.labelled?_eq_some fun _ => rfl, filterMap_iceUser]
    rfl
  · rw [hview Attribute.labelled?_eq_some fun _ => rfl, filterMap_icePassword]
    rfl
  · exact ofParts_eq _ horigin hfirst hattributes

/-- What a written bundle is read as means the bundle. -/
theorem Sound.ofSession_reread (h : b.Sound)
    (hm : ∀ m ∈ b.media, (m.payloads.map Payload.payloadType).Nodup ∧ [] ∉ words m.mid) :
    ofSession b.toSession.reread.rekeyed
      = .ok { b with media := b.media.map fun m => { m with port := 9 } } := by
  obtain ⟨gs, hgs⟩ := h.exists_reread fun m hmem => (hm m hmem).2
  have hsections : b.toSession.reread.rekeyed.media
      = b.media.map fun m => (m.toSection b.transportAttributes).reread.rekeyed := by
    simp [Session.rekeyed, Session.reread, toSession, Function.comp_def]
  refine ofSession_of_isSectionOf h.media_ne_nil (fun m hmem => ⟨h.media m hmem, (hm m hmem).1⟩)
    rfl hgs ?_
  rw [hsections, List.forall₂_map_right_iff, List.forall₂_same]
  exact fun m hmem => (h.media m hmem).exists_reread_toSection h.transport

/-- A bundle that was read, answered and restricted is found again in its text,
on ports that stand for none, if every medium has payloads of different types
and no identifier has an empty word in it. -/
theorem ofText_text_of_reachable (hb : b.Reachable)
    (hm : ∀ m ∈ b.media, m.payloads ≠ [] ∧ (m.payloads.map Payload.payloadType).Nodup
      ∧ [] ∉ Text.words m.mid) :
    ofText b.text = .ok { b with media := b.media.map fun m => { m with port := 9 } } := by
  have h := hb.sound
  have hread : Session.ofText b.text = .ok b.toSession.reread.rekeyed :=
    Session.ofText_text_of_legible (h.legible_fields fun m hmem =>
      ⟨(hm m hmem).1, (hm m hmem).2.2⟩)
  rw [ofText, hread]
  exact mapError_eq_ok.mpr (h.ofSession_reread fun m hmem => (hm m hmem).2)

/-- A session with a medium that is sent again, and in a form whose identifier
holds a separator. -/
def sample : Text :=
  "v=0\r\no=- 7 2 IN IP4 x\r\ns=-\r\nt=0 0\r\na=ice-ufrag:u\r\na=ice-pwd:p\r\n".toList
    ++ "m=video 5000 RTP/SAVPF 96 97\r\na=mid:a b\r\na=rtpmap:96 VP8/90000\r\n".toList
    ++ "a=rtpmap:97 rtx/90000\r\na=fmtp:97 apt=96\r\na=rid:l,m send\r\n".toList

theorem ofText_text_of_reachable_sample : ∃ b a : Bundle, ofText sample = .ok b
    ∧ (b.answer (some .active) (Draw.cycle [1])).1 = .ok a
    ∧ ofText a.toCapability.text = .ok { a.toCapability with
        media := a.toCapability.media.map fun m => { m with port := 9 } } := by
  obtain ⟨b, hb, hm⟩ := exists_ok_of_any (x := ofText sample) (P := fun b =>
    ∀ m ∈ (b.answering .active (drawCredentials (Draw.cycle [1])).1).toCapability.media,
      m.payloads ≠ [] ∧ (m.payloads.map Payload.payloadType).Nodup ∧ [] ∉ Text.words m.mid)
    (by decide +kernel)
  have ha : (b.answer (some .active) (Draw.cycle [1])).1
      = .ok (b.answering .active (drawCredentials (Draw.cycle [1])).1) := rfl
  exact ⟨b, _, hb, ha, ofText_text_of_reachable
    (.toCapability (.answer (.read (.inl ⟨sample, hb⟩)) ha)) hm⟩

/-! ### What is accepted -/

/-- What is written is accepted as a session if and only if every medium has a
payload, where no identifier has an empty word in it. -/
theorem Sound.accepted_iff (h : b.Sound) (hmid : ∀ m ∈ b.media, [] ∉ Text.words m.mid) :
    (∃ s, Session.ofText b.text = .ok s) ↔ ∀ m ∈ b.media, m.payloads ≠ [] :=
  h.exists_ofText_text_iff.trans
    ⟨fun hc m hm => (hc m hm).1, fun hc m hm => ⟨hc m hm, hmid m hm⟩⟩

/-- What is written of a bundle that was read, of its answer in any role and of
that answer restricted is accepted as a session if and only if every medium has
a payload.  That is so where no identifier has an empty word in it, and is left
open elsewhere. -/
theorem accepted_iff_of_isRead (hb : b.IsRead) (hmid : ∀ m ∈ b.media, [] ∉ Text.words m.mid)
    (role : SetupRole) (e : Entropy) :
    ∃ a, (b.answer (some role) e).1 = .ok a ∧ ∀ c ∈ [b, a, a.toCapability],
      (∃ s, Session.ofText c.text = .ok s) ↔ ∀ m ∈ c.media, m.payloads ≠ [] := by
  have ha : (b.answer (some role) e).1 = .ok (b.answering role (drawCredentials e).1) := rfl
  -- Neither answering nor restricting changes an identifier.
  have hanswer : ∀ m ∈ (b.answering role (drawCredentials e).1).media, [] ∉ Text.words m.mid :=
    List.forall_mem_map.mpr hmid
  have hcapability : ∀ m ∈ (b.answering role (drawCredentials e).1).toCapability.media,
      [] ∉ Text.words m.mid := List.forall_mem_map.mpr hanswer
  refine ⟨_, ha, ?_⟩
  simp only [List.forall_mem_cons]
  exact ⟨hb.sound.accepted_iff hmid, (hb.sound.answer ha).accepted_iff hanswer,
    (hb.sound.answer ha).toCapability.accepted_iff hcapability, List.forall_mem_nil _⟩

theorem accepted_iff_of_isRead_sample : ∃ b a : Bundle, ofText sample = .ok b
    ∧ (∀ m ∈ b.media, [] ∉ Text.words m.mid)
    ∧ (b.answer (some .passive) (Draw.cycle [1])).1 = .ok a
    ∧ (∀ c ∈ [b, a, a.toCapability], (∃ s, Session.ofText c.text = .ok s) ↔
      ∀ m ∈ c.media, m.payloads ≠ [])
    ∧ ∃ s, Session.ofText b.text = .ok s := by
  obtain ⟨b, hb, hmid, hpayloads⟩ := exists_ok_of_any (x := ofText sample) (P := fun b =>
    (∀ m ∈ b.media, [] ∉ Text.words m.mid) ∧ ∀ m ∈ b.media, m.payloads ≠ []) (by decide +kernel)
  obtain ⟨a, ha, hc⟩ := accepted_iff_of_isRead (.inl ⟨sample, hb⟩) hmid .passive (Draw.cycle [1])
  exact ⟨b, a, hb, hmid, ha, hc, (hc b (by simp)).mpr hpayloads⟩

/-- A session with an audio and a medium that has no payload types. -/
def dataSample : Text :=
  "v=0\r\no=- 1 1 IN IP4 x\r\ns=-\r\nt=0 0\r\na=ice-ufrag:u\r\na=ice-pwd:p\r\n".toList
    ++ "m=audio 9 RTP/AVP 0\r\na=mid:a b\r\na=rtpmap:0 PCMU/8000\r\n".toList
    ++ "m=application 9 UDP/DTLS/SCTP webrtc-datachannel\r\na=mid:data\r\n".toList

/-- The session can be read, but not read again when it has been written. -/
theorem not_accepted_dataSample : ∃ b : Bundle, ofText dataSample = .ok b
    ∧ (∀ m ∈ b.media, [] ∉ Text.words m.mid) ∧ ¬ ∃ s, Session.ofText b.text = .ok s := by
  obtain ⟨b, hb, hmid, hfault⟩ := exists_ok_of_any (x := ofText dataSample) (P := fun b =>
    (∀ m ∈ b.media, [] ∉ Text.words m.mid) ∧ (Session.ofText b.text).isOk = false)
    (by decide +kernel)
  refine ⟨b, hb, hmid, ?_⟩
  rintro ⟨s, hs⟩
  rw [hs] at hfault
  exact absurd hfault nofun

end Bundle

end OfferAnswer
