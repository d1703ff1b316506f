/-
OfferAnswer/Proofs/Bundle/Types.lean

Whether the payload types of a medium are all different.

A payload is joined for each format, so a number that stands twice among the
formats makes two payloads of one type, and both write the feedback of that
type.  No other way leads to this: payload types for retransmission are found
by what they repeat, and so are as different as the payloads are.
`readsUniqueTypes_iff` says that formats which stand for different numbers are all
that it takes.
-/
import OfferAnswer.Proofs.Bundle.Offered
import OfferAnswer.Proofs.Bundle.Table
import OfferAnswer.Proofs.Bundle.Written

namespace OfferAnswer

open Text Outcome

/-! ### Payloads -/

namespace Payload

variable {as : AttributeList} {fs : List Text} {ps : List Payload} {n : Int} {p : Payload}

theorem IsJoinedFrom.payloadType_eq (h : IsJoinedFrom as n p) : p.payloadType = n :=
  eq_of_beq (List.mem_filter.mp (List.mem_of_getLast? h.codec)).2

/-- Payloads have the types that are listed, in the same order. -/
theorem map_payloadType_of_ofAttributes (h : ofAttributes fs as = .ok ps) :
    ps.map payloadType = listed fs as := by
  have hjoined := forall₂_isJoinedFrom h
  rw [← List.forall₂_eq_eq_eq, List.forall₂_map_left_iff]
  exact (hjoined.imp fun _ _ hp => hp.payloadType_eq).flip

end Payload

/-! ### Media -/

namespace RtpMedia

variable {m : RtpMedia}

/-- No two payloads have the same type, none has the type in which another is
sent again, and no two are sent again in the same type. -/
def HasUniqueTypes (m : RtpMedia) : Prop := (m.payloads.flatMap Payload.types).Nodup

instance (m : RtpMedia) : Decidable m.HasUniqueTypes := inferInstanceAs (Decidable (List.Nodup _))

/-- Types for retransmission are unique if those of the payloads are. -/
theorem Sound.hasUniqueTypes_iff (h : m.Sound) :
    m.HasUniqueTypes ↔ (m.payloads.map Payload.payloadType).Nodup := by
  refine ⟨fun hunique => ?_, Payload.nodup_types h.payloads⟩
  rw [List.map_eq_flatMap]
  refine hunique.sublist (List.Sublist.flatMap_right _ fun p _ => ?_)
  exact List.singleton_sublist.mpr List.mem_cons_self

end RtpMedia

/-! ### Bundles -/

namespace Bundle

variable {b b' : Bundle}

/-- The feedback of each payload, medium by medium. -/
def feedback (b : Bundle) : List (List (List (Text × Option Text))) :=
  b.media.map fun m => m.payloads.map Payload.feedback

/-- If the text of a bundle can be read again, then with the same feedback. -/
def KeepsFeedback (b : Bundle) : Prop := ∀ b', ofText b.text = .ok b' → b'.feedback = b.feedback

/-- A text or bytes that are read as a bundle have media with unique payload
types, and keep their feedback when the bundle is written and read again. -/
def ReadsUniqueTypes (raw : Text ⊕ List UInt8) : Prop :=
  ∀ b, ofRaw raw = .ok b → (∀ m ∈ b.media, m.HasUniqueTypes) ∧ b.KeepsFeedback

/-- What is read from the text of a bundle whose payloads have different types
is the bundle, on ports that stand for none. -/
theorem Sound.eq_of_ofText_text (h : b.Sound)
    (hd : ∀ m ∈ b.media, (m.payloads.map Payload.payloadType).Nodup)
    (hb' : ofText b.text = .ok b') :
    b' = { b with media := b.media.map fun m => { m with port := 9 } } := by
  obtain ⟨s, hs, hb'⟩ := bind_eq_ok.mp hb'
  have hs := mapError_eq_ok.mp hs
  have hm := h.exists_ofText_text_iff.mp ⟨s, hs⟩
  have hread : Session.ofText b.text = .ok b.toSession.reread.rekeyed :=
    Session.ofText_text_of_legible (h.legible_fields hm)
  obtain rfl := Except.ok.inj (hs.symm.trans hread)
  have hsession := h.ofSession_reread fun m hmem => ⟨hd m hmem, (hm m hmem).2⟩
  exact Except.ok.inj ((mapError_eq_ok.mp hb').symm.trans hsession)

theorem Sound.keepsFeedback (h : b.Sound)
    (hd : ∀ m ∈ b.media, (m.payloads.map Payload.payloadType).Nodup) : b.KeepsFeedback := by
  intro b' hb'
  obtain rfl := h.eq_of_ofText_text hd hb'
  rw [feedback, List.map_map]
  rfl

/-- The payloads of the media that are read have the types that their sections
list. -/
theorem forall_nodup_payloadType_iff {s : Session} (h : ofSession s = .ok b) :
    (∀ m ∈ b.media, (m.payloads.map Payload.payloadType).Nodup)
      ↔ ∀ m ∈ s.media, (Payload.listed m.medium.formats m.attributes).Nodup := by
  have hmap : b.media.map (fun m => m.payloads.map Payload.payloadType)
      = s.media.map fun m => Payload.listed m.medium.formats m.attributes := by
    rw [← List.forall₂_eq_eq_eq, List.forall₂_map_left_iff, List.forall₂_map_right_iff]
    refine ((forall₂_media h).imp fun offered m hm => ?_).flip
    exact Payload.map_payloadType_of_ofAttributes (RtpMedia.ofAttributes_of_ofSection hm)
  rw [← List.forall_mem_map (P := List.Nodup), hmap, List.forall_mem_map]

/-- Payload types are unique just where no medium has two formats for the same
number, among those whose codec carries media. -/
theorem readsUniqueTypes_iff (raw : Text ⊕ List UInt8) : ReadsUniqueTypes raw ↔
    ∀ s b, raw.elim Session.ofText Session.ofBytes = .ok s → ofRaw raw = .ok b →
      ∀ m ∈ s.media, (Payload.listed m.medium.formats m.attributes).Nodup := by
  constructor
  · intro h s b hs hb
    have hread := ofSession_of_ofRaw hs hb
    have hsound := sound_of_ofSession (Session.sound_of_ofRaw hs) hread
    refine (forall_nodup_payloadType_iff hread).mp fun m hm => ?_
    exact (hsound.media m hm).hasUniqueTypes_iff.mp ((h b hb).1 m hm)
  · intro h b hb
    obtain ⟨s, hs⟩ := exists_session_of_ofRaw hb
    have hread := ofSession_of_ofRaw hs hb
    have hsound := sound_of_ofSession (Session.sound_of_ofRaw hs) hread
    have hd := (forall_nodup_payloadType_iff hread).mpr (h s b hs hb)
    refine ⟨fun m hm => ?_, hsound.keepsFeedback hd⟩
    exact (hsound.media m hm).hasUniqueTypes_iff.mpr (hd m hm)

/-- A description of a video whose one format is given twice. -/
def repeatedFormat : Text :=
  ("v=0\r\no=- 1 1 IN IP4 127.0.0.1\r\ns=-\r\nt=0 0\r\nm=video 9 UDP/TLS/RTP/SAVPF 96 96\r\n"
    ++ "a=ice-ufrag:u\r\na=ice-pwd:p\r\na=mid:0\r\na=rtpmap:96 VP8/90000\r\n"
    ++ "a=rtcp-fb:96 nack\r\n").toList

/-- The description is read as a bundle with two payloads of one type, and each
of them has the feedback of both when the bundle is written and read again. -/
theorem not_readsUniqueTypes_repeatedFormat :
    (∃ b, ofText repeatedFormat = .ok b ∧ (∃ m ∈ b.media, ¬ m.HasUniqueTypes) ∧ ¬ b.KeepsFeedback)
      ∧ ¬ ReadsUniqueTypes (.inl repeatedFormat) := by
  obtain ⟨b, hb, hmedia, hagain⟩ := exists_ok_of_any (x := ofText repeatedFormat)
    (P := fun b => (∃ m ∈ b.media, ¬ m.HasUniqueTypes) ∧
      ((ofText b.text).toOption.any fun b' => decide (b'.feedback ≠ b.feedback)) = true)
    (by decide +kernel)
  have hkeeps : ¬ b.KeepsFeedback := by
    intro hkeeps
    obtain ⟨b', hb', hne⟩ := exists_ok_of_any hagain
    exact hne (hkeeps b' hb')
  exact ⟨⟨b, hb, hmedia, hkeeps⟩, fun h => hkeeps (h b hb).2⟩

end Bundle

end OfferAnswer
