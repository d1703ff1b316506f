/-
OfferAnswer/Proofs/Bundle/Simulcast.lean

The simulcast that is written of a medium.

A medium with streams is written with a simulcast that lists them.  The
listing sets streams apart by semicolons, and the alternatives of one stream
by commas, but the identifier of a stream may hold either.  The simulcast is
then read as one of other streams (`read_simulcast_iff`).
`listsStreams_iff` says that this is all that can go wrong, in a bundle that is
read as in every answer to it.
-/
import OfferAnswer.Proofs.Bundle.Faults
import OfferAnswer.Proofs.Bundle.Written

namespace OfferAnswer

open Text Outcome

/-! ### Listings -/

/-- No semicolon and no comma, which set streams and alternatives apart. -/
def Text.IsUnseparated (t : Text) : Prop := ';' ∉ t ∧ ',' ∉ t

namespace Simulcast

/-- Streams without alternatives are found again in their listing just where
no identifier holds a separator. -/
theorem listed_listing_iff {ids : List Text} (hne : ids ≠ []) (h : ∀ id ∈ ids, IsWord InLine id) :
    listed (listing (ids.map ([·]))) = ids.map ([·]) ↔ ∀ id ∈ ids, id.IsUnseparated := by
  have hword : IsWord AnyChar (listing (ids.map ([·]))) := by
    have hlisting := Encoding.isWord_listing hne h
    exact isWord_anyChar.mpr ⟨hlisting.ne_nil, hlisting.blank_not_mem⟩
  constructor
  · intro hlisted id hid
    have hapart := keptApart_iff.mpr ⟨hword, hlisted⟩
    exact (hapart.ids [id] (List.mem_map_of_mem hid) id (List.mem_singleton.mpr rfl)).2
  · intro hids
    apply KeptApart.listed_listing
    refine ⟨?_, ?_, List.forall_mem_map.mpr fun id _ => List.cons_ne_nil _ _,
      List.forall_mem_map.mpr fun id hid => ?_⟩
    · simpa using hne
    · -- a word is not empty
      intro hblank
      obtain ⟨id, rfl, hid⟩ := List.map_eq_singleton_iff.mp hblank
      exact (h id (List.mem_singleton.mpr rfl)).ne_nil (List.singleton_inj.mp hid)
    · intro id' hid'
      obtain rfl := List.mem_singleton.mp hid'
      exact ⟨(h id' hid).blank_not_mem, hids id' hid⟩

end Simulcast

/-! ### Encodings -/

namespace Encoding

variable {es : List Encoding} {d : StreamDirection} {id : Text}

/-- No identifier of a stream holds a separator. -/
def AreUnseparated (es : List Encoding) : Prop := ∀ id d, .stream id d ∈ es → id.IsUnseparated

theorem mem_streamsIn_iff : id ∈ streamsIn d es ↔ .stream id d ∈ es := by
  unfold streamsIn
  rw [List.mem_filterMap]
  constructor
  · rintro ⟨e, he, hid⟩
    cases e with
    | stream id' d' =>
      simp only at hid
      split at hid
      · next hd =>
        subst hd
        obtain rfl := Option.some.inj hid
        exact he
      · simp at hid
    | source => simp at hid
  · intro he
    exact ⟨_, he, by simp⟩

theorem areUnseparated_iff : AreUnseparated es ↔ ∀ d, ∀ id ∈ streamsIn d es, id.IsUnseparated := by
  constructor
  · intro h d id hid
    exact h id d (mem_streamsIn_iff.mp hid)
  · intro h id d he
    exact h d id (mem_streamsIn_iff.mpr he)

/-- There is a simulcast just if there are streams. -/
theorem isEmpty_simulcastStreams_iff :
    (simulcastStreams es).isEmpty = false ↔ ∃ e ∈ es, e.isStream = true := by
  have hempty : (simulcastStreams es).isEmpty = true ↔ ∀ d, streamsIn d es = [] := by
    rw [OrderedMap.isEmpty, entries_simulcastStreams, List.isEmpty_iff, List.filterMap_eq_nil_iff]
    constructor
    · intro h d
      have hd : d ∈ [StreamDirection.send, .recv] := by cases d <;> simp
      simpa using h d hd
    · intro h d _
      simp [h d]
  rw [← Bool.not_eq_true, hempty, not_forall]
  constructor
  · rintro ⟨d, hd⟩
    obtain ⟨id, hid⟩ := List.exists_mem_of_ne_nil _ hd
    exact ⟨_, mem_streamsIn_iff.mp hid, rfl⟩
  · rintro ⟨e, he, hstream⟩
    cases e with
    | stream id d => exact ⟨d, List.ne_nil_of_mem (mem_streamsIn_iff.mpr he)⟩
    | source => simp [isStream] at hstream

/-- The simulcast of some streams can be read, and lists them if their
identifiers allow it. -/
theorem read_simulcast_iff (h : ∀ e ∈ es, e.WellFormed)
    (hne : (simulcastStreams es).isEmpty = false) :
    (∃ s, Attribute.ofText (Attribute.simulcast ⟨simulcastStreams es⟩).text = .ok (.simulcast s)
      ∧ ∀ d, s.inDirection d = (streamsIn d es).map ([·])) ↔ AreUnseparated es := by
  obtain ⟨s, hs, hentries⟩ :=
    Simulcast.exists_read_text (s := ⟨simulcastStreams es⟩) (legible_simulcastStreams h hne)
  have hread : Attribute.ofText (Attribute.simulcast ⟨simulcastStreams es⟩).text
      = .ok (.simulcast s) :=
    (Attribute.ofText_eq_ok_iff (k := .simulcast) rfl nofun rfl).mpr (map_eq_ok.mpr ⟨s, hs, rfl⟩)
  -- What is read in a direction is what its streams are listed as.
  have hlisted : ∀ d, s.inDirection d = if streamsIn d es = [] then []
      else Simulcast.listed (Simulcast.listing ((streamsIn d es).map ([·]))) := by
    intro d
    rw [Simulcast.inDirection, OrderedMap.get?, hentries, entries_simulcastStreams]
    by_cases hsend : streamsIn .send es = [] <;> by_cases hrecv : streamsIn .recv es = [] <;>
      cases d <;> simp [hsend, hrecv]
  have hdirection : ∀ d, s.inDirection d = (streamsIn d es).map ([·])
      ↔ ∀ id ∈ streamsIn d es, id.IsUnseparated := by
    intro d
    rw [hlisted]
    split
    · next hnil => simp [hnil]
    · next hids =>
      exact Simulcast.listed_listing_iff hids fun id hid => isWord_of_mem_streamsIn h hid
  rw [areUnseparated_iff]
  constructor
  · rintro ⟨s', hs', hdirections⟩
    obtain rfl : s' = s := Attribute.simulcast.inj (Except.ok.inj (hs'.symm.trans hread))
    exact fun d => (hdirection d).mp (hdirections d)
  · intro hids
    exact ⟨s, hread, fun d => (hdirection d).mpr (hids d)⟩

/-- An answer turns streams round and leaves their identifiers as they are. -/
theorem areUnseparated_answer_iff :
    AreUnseparated (es.filterMap answer?) ↔ AreUnseparated es := by
  have hmem : ∀ id d, .stream id d ∈ es.filterMap answer? ↔ .stream id d.reverse ∈ es := by
    intro id d
    rw [List.mem_filterMap]
    constructor
    · rintro ⟨e, he, heq⟩
      cases e with
      | stream id' d' =>
        obtain ⟨rfl, rfl⟩ := Encoding.stream.inj (Option.some.inj heq)
        rwa [StreamDirection.reverse_reverse]
      | source => simp [answer?] at heq
    · intro he
      exact ⟨_, he, by simp [answer?]⟩
  constructor
  · intro h id d he
    exact h id d.reverse ((hmem id _).mpr (by rwa [StreamDirection.reverse_reverse]))
  · intro h id d he
    exact h id d.reverse ((hmem id d).mp he)

end Encoding

/-! ### Media -/

namespace RtpMedia

variable {m : RtpMedia} {transport : List Attribute}

/-- A medium is written with a simulcast if it has streams, and the simulcast
is read as that of its streams in each direction, in order. -/
structure ListsStreams (m : RtpMedia) (transport : List Attribute) : Prop where
  exists_iff : (∃ s, .simulcast s ∈ (m.toSection transport).attributes)
    ↔ ∃ e ∈ m.encodings, e.isStream = true
  reads : ∀ s, .simulcast s ∈ (m.toSection transport).attributes →
    ∃ s', Attribute.ofText (Attribute.simulcast s).text = .ok (.simulcast s')
      ∧ ∀ d, s'.inDirection d = (Encoding.streamsIn d m.encodings).map ([·])

theorem simulcast_mem_iff (ht : ∀ a ∈ transport, a.subject = .transport) {s : Simulcast} :
    .simulcast s ∈ (m.toSection transport).attributes ↔ s ∈ m.simulcasts := by
  -- Whatever speaks of another subject is no simulcast.
  have hother : ∀ {as : List Attribute} {σ}, (∀ a ∈ as, a.subject = σ) → .medium ≠ σ →
      Attribute.simulcast s ∉ as := fun h hσ hs => hσ (h _ hs)
  have hextensions : Attribute.simulcast s ∉ m.extensionAttributes :=
    hother (List.forall_mem_map.mpr fun _ _ => rfl) (by decide)
  have hflags : Attribute.simulcast s ∉ m.direction.toAttribute :: m.flags := by
    simp only [flags, MediaDirection.toAttribute, List.mem_cons, List.mem_append]
    split <;> split <;> split <;> simp
  have hpayloads : Attribute.simulcast s ∉ m.payloads.flatMap Payload.attributes :=
    hother (List.forall_mem_flatMap.mpr fun _ _ => subject_of_mem_payload) (by decide)
  have hencodings : Attribute.simulcast s ∉ m.encodings.flatMap Encoding.ownAttributes :=
    hother (List.forall_mem_flatMap.mpr fun _ _ => subject_of_mem_encoding) (by decide)
  show Attribute.simulcast s ∈ m.attributes transport ↔ _
  rw [attributes_eq, attributesWith]
  simp only [List.mem_append, hother ht (by decide), hextensions, hflags, hpayloads, hencodings]
  simp

theorem Sound.listsStreams_iff_areUnseparated (h : m.Sound)
    (ht : ∀ a ∈ transport, a.subject = .transport) :
    m.ListsStreams transport ↔ Encoding.AreUnseparated m.encodings := by
  have hnone : ∀ {id d}, .stream id d ∈ m.encodings →
      (Encoding.simulcastStreams m.encodings).isEmpty = false :=
    fun he => Encoding.isEmpty_simulcastStreams_iff.mpr ⟨_, he, rfl⟩
  constructor
  · intro hlists id d he
    have hmem : ⟨Encoding.simulcastStreams m.encodings⟩ ∈ m.simulcasts := by
      simp [RtpMedia.simulcasts, hnone he]
    exact (Encoding.read_simulcast_iff h.encodings.wellFormed (hnone he)).mp
      (hlists.reads _ ((simulcast_mem_iff ht).mpr hmem)) id d he
  · intro hids
    refine ⟨?_, fun s hs => ?_⟩
    · rw [← Encoding.isEmpty_simulcastStreams_iff]
      simp only [simulcast_mem_iff ht, RtpMedia.simulcasts]
      cases (Encoding.simulcastStreams m.encodings).isEmpty <;> simp
    · rw [simulcast_mem_iff ht, RtpMedia.simulcasts] at hs
      split at hs
      · simp at hs
      · next hne =>
        obtain rfl := List.mem_singleton.mp hs
        exact (Encoding.read_simulcast_iff h.encodings.wellFormed (by simpa using hne)).mpr hids

end RtpMedia

/-! ### Bundles -/

namespace Bundle

variable {b : Bundle}

/-- The media of a bundle list their streams, on the transport of the
bundle. -/
def WritesStreams (b : Bundle) : Prop := ∀ m ∈ b.media, m.ListsStreams b.transportAttributes

theorem Sound.writesStreams_iff (h : b.Sound) :
    b.WritesStreams ↔ ∀ m ∈ b.media, Encoding.AreUnseparated m.encodings :=
  forall₂_congr fun m hm => (h.media m hm).listsStreams_iff_areUnseparated subject_of_mem_transport

/-- A text or bytes are read as a bundle whose media list their streams, and so
do those of every answer to it. -/
def ListsStreams (raw : Text ⊕ List UInt8) : Prop :=
  ∀ b, ofRaw raw = .ok b → b.WritesStreams
    ∧ ∀ (role : Option SetupRole) (e : Entropy) (a : Bundle),
      (b.answer role e).1 = .ok a → a.WritesStreams

theorem isRead_of_ofRaw {raw : Text ⊕ List UInt8} (h : ofRaw raw = .ok b) : b.IsRead := by
  cases raw with
  | inl t => exact .inl ⟨t, h⟩
  | inr bytes => exact .inr ⟨bytes, h⟩

/-- Simulcasts list just the streams where no stream that is read has an
identifier with a separator in it. -/
theorem listsStreams_iff (raw : Text ⊕ List UInt8) : ListsStreams raw ↔
    ∀ b, ofRaw raw = .ok b → ∀ m ∈ b.media, Encoding.AreUnseparated m.encodings := by
  constructor
  · intro h b hb
    exact (isRead_of_ofRaw hb).sound.writesStreams_iff.mp (h b hb).1
  · intro h b hb
    have hsound := (isRead_of_ofRaw hb).sound
    refine ⟨hsound.writesStreams_iff.mpr (h b hb), fun role e a ha => ?_⟩
    refine (hsound.answer ha).writesStreams_iff.mpr ?_
    obtain ⟨r, rfl⟩ := exists_answering ha
    refine List.forall_mem_map.mpr fun m hm => ?_
    exact Encoding.areUnseparated_answer_iff.mpr (h b hb m hm)

/-- A description as it is written of a bundle with one stream, whose
identifier holds a comma. -/
def commaStream : Text :=
  ("v=0\r\no=- 1 1 IN IP4 127.0.0.1\r\ns=-\r\nt=0 0\r\na=group:BUNDLE 0\r\n"
    ++ "m=video 9 UDP/TLS/RTP/SAVPF 96\r\nc=IN IP4 0.0.0.0\r\na=rtcp:9 IN IP4 0.0.0.0\r\n"
    ++ "a=ice-ufrag:u\r\na=ice-pwd:p\r\na=setup:actpass\r\na=mid:0\r\na=sendrecv\r\n"
    ++ "a=rtpmap:96 VP8/90000\r\na=rid:l,m send\r\na=simulcast:send l,m\r\n").toList

/-- The description is read and written as it was.  Its simulcast is that of
one stream with two alternatives, neither of which is a stream of the medium. -/
theorem not_listsStreams_commaStream :
    (∃ b, ofText commaStream = .ok b ∧ b.text = commaStream
        ∧ b.media.map RtpMedia.encodings = [[.stream "l,m".toList .send]])
      ∧ (∃ s, Attribute.ofText "simulcast:send l,m".toList = .ok (.simulcast s)
        ∧ s.inDirection .send = [["l".toList, "m".toList]])
      ∧ ¬ ListsStreams (.inl commaStream) := by
  obtain ⟨b, hb, htext, hencodings⟩ := exists_ok_of_any (x := ofText commaStream)
    (P := fun b => b.text = commaStream
      ∧ b.media.map RtpMedia.encodings = [[.stream "l,m".toList .send]]) (by decide +kernel)
  refine ⟨⟨b, hb, htext, hencodings⟩, ⟨_, rfl, rfl⟩, fun h => ?_⟩
  obtain ⟨m, hmedia, hm⟩ := List.map_eq_singleton_iff.mp hencodings
  have hids := (IsRead.sound (.inl ⟨_, hb⟩)).writesStreams_iff.mp (h b hb).1 m (by simp [hmedia])
  exact (hids "l,m".toList .send (by simp [hm])).2 (by decide)

end Bundle

end OfferAnswer
