/-
OfferAnswer/Proofs/Bundle/Offered.lean

The payload types of an answer, against those of its offer.

Payloads are looked for among the formats of a medium only, so the payload
type of a payload was offered.  A payload type for retransmission is found by
its codec and its parameter instead, and these may speak of one that is no
format; it is written among the formats of the answer all the same.
`answersFromOffer_iff` says that nothing else is.
-/
import OfferAnswer.Proofs.Bundle.Faults
import OfferAnswer.Proofs.Bundle.Reachable
import Mathlib.Data.List.ReduceOption

namespace OfferAnswer

open Outcome

/-! ### Numbers among formats -/

namespace Payload

variable {as : AttributeList} {fs : List Text} {ps : List Payload} {p : Payload}

/-- The numbers among some formats. -/
def numbers (fs : List Text) : List Int := fs.filterMap fun f => (number? f).toOption.join

theorem numbers_of_mapM {ns : List (Option Int)} (h : fs.mapM number? = .ok ns) :
    numbers fs = ns.reduceOption := by
  have h := mapM_eq_ok.mp h
  induction h with
  | nil => rfl
  | cons hn _ ih =>
    rw [numbers, List.filterMap_cons, hn, ← numbers, ih (mapM_eq_ok.mpr ‹_›)]
    rfl

/-- Payloads are joined under the numbers among the formats. -/
theorem payloadType_mem_numbers (h : ofAttributes fs as = .ok ps) (hp : p ∈ ps) :
    p.payloadType ∈ numbers fs := by
  obtain ⟨rs, -, h⟩ := bind_eq_ok.mp h
  obtain ⟨ns, hns, h⟩ := bind_eq_ok.mp h
  obtain rfl := pure_eq_ok.mp h
  obtain ⟨n, hn, hp⟩ := List.mem_filterMap.mp hp
  obtain ⟨t, rfl, hp⟩ := Option.bind_eq_some_iff.mp hp
  obtain ⟨-, -, -, -, -, rfl⟩ := behind?_eq_some hp
  rw [numbers_of_mapM hns]
  exact List.mem_filterMap.mpr ⟨some _, hn, rfl⟩

/-- The formats of payloads are the numbers that they take up. -/
theorem Joined.numbers_formats (h : Joined ps) :
    numbers (ps.flatMap formats) = ps.flatMap types := by
  rw [numbers_of_mapM h.mapM_number?_formats]
  simp [List.reduceOption]

end Payload

/-! ### Media -/

namespace RtpMedia

variable {m : RtpMedia} {offered : MediaSection}

theorem ofAttributes_of_ofSection (h : ofSection offered = .ok m) :
    Payload.ofAttributes offered.medium.formats offered.attributes = .ok m.payloads := by
  unfold ofSection at h
  split at h
  · simp at h
  · obtain ⟨ps, hps, h⟩ := bind_eq_ok.mp h
    obtain ⟨d, -, h⟩ := bind_eq_ok.mp h
    obtain rfl := pure_eq_ok.mp h
    exact mapError_eq_ok.mp hps

/-- Payload types that are sent again in a form that is supported are sent
again under a format. -/
def RepeatsUnder (m : RtpMedia) (fs : List Text) : Prop :=
  ∀ p ∈ m.payloads, (Capability.ofKind m.kind).supports p = true →
    ∀ r ∈ p.retransmission, r ∈ Payload.numbers fs

/-- The formats of the restricted answer are offered, apart from those for
retransmission. -/
theorem numbers_answer_subset_iff (hm : m.Sound) (h : ofSection offered = .ok m)
    (transport : List Attribute) :
    Payload.numbers (m.answer.toCapability.toSection transport).medium.formats
        ⊆ Payload.numbers offered.medium.formats
      ↔ m.RepeatsUnder offered.medium.formats := by
  let c := Capability.ofKind m.kind
  have hformats : (m.answer.toCapability.toSection transport).medium.formats
      = ((m.payloads.filter c.supports).map c.restrictPayload).flatMap Payload.formats := rfl
  rw [hformats, (hm.payloads.restrict c).numbers_formats]
  have hown : ∀ p ∈ m.payloads, p.payloadType ∈ Payload.numbers offered.medium.formats :=
    fun p hp => Payload.payloadType_mem_numbers (ofAttributes_of_ofSection h) hp
  constructor
  · intro hsub p hp hs r hr
    refine hsub (List.mem_flatMap.mpr ⟨c.restrictPayload p, ?_, ?_⟩)
    · exact List.mem_map_of_mem (List.mem_filter.mpr ⟨hp, hs⟩)
    · exact List.mem_cons_of_mem _ (Option.mem_toList.mpr hr)
  · intro hr t ht
    obtain ⟨q, hq, ht⟩ := List.mem_flatMap.mp ht
    obtain ⟨p, hp, rfl⟩ := List.mem_map.mp hq
    obtain ⟨hp, hs⟩ := List.mem_filter.mp hp
    rcases List.mem_cons.mp ht with rfl | ht
    · exact hown p hp
    · exact hr p hp hs t (Option.mem_toList.mp ht)

end RtpMedia

/-! ### Bundles -/

namespace Bundle

/-- The answer to a text or bytes, in any role and restricted to what is
supported, has in each of its media no numbers but those among the formats of
the same medium offered. -/
def AnswersFromOffer (raw : Text ⊕ List UInt8) : Prop :=
  ∀ s b, raw.elim Session.ofText Session.ofBytes = .ok s → ofRaw raw = .ok b →
    ∀ (role : SetupRole) (e : Entropy), ∃ a, (b.answer (some role) e).1 = .ok a ∧
      ∀ (i : Nat) (m : MediaSection), a.toCapability.toSession.media[i]? = some m →
        ∃ offered : MediaSection, s.media[i]? = some offered
          ∧ Payload.numbers m.medium.formats ⊆ Payload.numbers offered.medium.formats

/-- The media of a bundle are read from those of its session, each from its
own. -/
theorem forall₂_media {s : Session} {b : Bundle} (h : ofSession s = .ok b) :
    List.Forall₂ (fun offered m => RtpMedia.ofSection offered = .ok m) s.media b.media := by
  obtain ⟨_, _, _, _, ms, -, -, -, hms, rfl⟩ := ofSession_eq_ok_iff.mp h
  exact mapM_eq_ok.mp hms

/-- The session behind a bundle that is read. -/
theorem ofSession_of_ofRaw {raw : Text ⊕ List UInt8} {s : Session} {b : Bundle}
    (hs : raw.elim Session.ofText Session.ofBytes = .ok s) (hb : ofRaw raw = .ok b) :
    ofSession s = .ok b := by
  rcases raw with t | bytes <;>
  · obtain ⟨s', hs', h⟩ := bind_eq_ok.mp hb
    obtain rfl := Except.ok.inj (hs.symm.trans (mapError_eq_ok.mp hs'))
    exact mapError_eq_ok.mp h

theorem exists_session_of_ofRaw {raw : Text ⊕ List UInt8} {b : Bundle} (hb : ofRaw raw = .ok b) :
    ∃ s, raw.elim Session.ofText Session.ofBytes = .ok s := by
  rcases raw with t | bytes <;>
  · obtain ⟨s, hs, -⟩ := bind_eq_ok.mp hb
    exact ⟨s, mapError_eq_ok.mp hs⟩

theorem answer_some (b : Bundle) (role : SetupRole) (e : Entropy) :
    (b.answer (some role) e).1 = .ok (b.answering role (drawCredentials e).1) := rfl

/-- The media of a written answer, each from its own. -/
theorem media_toSession_answering (b : Bundle) (role : SetupRole) (c : Credentials) :
    (b.answering role c).toCapability.toSession.media
      = b.media.map fun m =>
        m.answer.toCapability.toSection (b.answering role c).toCapability.transportAttributes := by
  simp only [toSession, toCapability, answering, List.map_map, Function.comp_def]

/-- An answer uses nothing but numbers that were offered, unless a payload
that is supported is sent again under a payload type that was not. -/
theorem answersFromOffer_iff (raw : Text ⊕ List UInt8) : AnswersFromOffer raw ↔
    ∀ s b, raw.elim Session.ofText Session.ofBytes = .ok s → ofRaw raw = .ok b →
      ∀ (i : Nat) (offered : MediaSection) (m : RtpMedia), s.media[i]? = some offered →
        b.media[i]? = some m → m.RepeatsUnder offered.medium.formats := by
  refine forall₂_congr fun s b => forall₂_congr fun hs hb => ?_
  have hread := ofSession_of_ofRaw hs hb
  have hsound := sound_of_ofSession (Session.sound_of_ofRaw hs) hread
  have hmedia := forall₂_media hread
  -- The media correspond place by place, so each place is settled by itself.
  have hplace : ∀ {i : Nat} {offered : MediaSection} {m : RtpMedia},
      s.media[i]? = some offered → b.media[i]? = some m → ∀ transport,
        Payload.numbers (m.answer.toCapability.toSection transport).medium.formats
            ⊆ Payload.numbers offered.medium.formats
          ↔ m.RepeatsUnder offered.medium.formats := by
    intro i offered m hoffered hm
    refine RtpMedia.numbers_answer_subset_iff (hsound.media m (List.mem_of_getElem? hm)) ?_
    obtain ⟨hi, rfl⟩ := List.getElem?_eq_some_iff.mp hoffered
    obtain ⟨hi', rfl⟩ := List.getElem?_eq_some_iff.mp hm
    exact hmedia.get hi hi'
  constructor
  · intro h i offered m hoffered hm
    obtain ⟨a, ha, h⟩ := h .active (Draw.cycle [])
    obtain rfl := Except.ok.inj ((answer_some b _ _).symm.trans ha)
    rw [media_toSession_answering] at h
    obtain ⟨offered', hoffered', hsub⟩ := h i _ (by rw [List.getElem?_map, hm, Option.map_some])
    obtain rfl := Option.some.inj (hoffered.symm.trans hoffered')
    exact (hplace hoffered hm _).mp hsub
  · intro h role e
    refine ⟨_, answer_some b role e, fun i written hwritten => ?_⟩
    rw [media_toSession_answering, List.getElem?_map] at hwritten
    obtain ⟨m, hm, rfl⟩ := Option.map_eq_some_iff.mp hwritten
    obtain ⟨hi', -⟩ := List.getElem?_eq_some_iff.mp hm
    have hi : i < s.media.length := hmedia.length_eq ▸ hi'
    have hoffered := List.getElem?_eq_getElem hi
    exact ⟨_, hoffered, (hplace hoffered hm _).mpr (h i _ m hoffered hm)⟩

/-- A description of a video with one format, and with the codec and the
parameter of another that is for retransmission. -/
def unlistedRepeat : Text :=
  ("v=0\r\no=- 1 1 IN IP4 127.0.0.1\r\ns=-\r\nt=0 0\r\nm=video 9 UDP/TLS/RTP/SAVPF 96\r\n"
    ++ "a=ice-ufrag:u\r\na=ice-pwd:p\r\na=mid:0\r\na=rtpmap:96 VP8/90000\r\n"
    ++ "a=rtpmap:97 rtx/90000\r\na=fmtp:97 apt=96\r\n").toList

/-- The description is read as a bundle, and the answer to it lists the number
that it does not. -/
theorem not_answersFromOffer_unlistedRepeat :
    (∃ b, ofText unlistedRepeat = .ok b) ∧ ¬ AnswersFromOffer (.inl unlistedRepeat) := by
  obtain ⟨s, hs, hoffered⟩ := exists_ok_of_any (x := Session.ofText unlistedRepeat)
    (P := fun s => (s.media.map fun m => Payload.numbers m.medium.formats) = [[96]])
    (by decide +kernel)
  obtain ⟨b, hb, hanswered⟩ := exists_ok_of_any (x := ofText unlistedRepeat)
    (P := fun b => (b.media.map fun m =>
      Payload.numbers (m.answer.toCapability.toSection []).medium.formats) = [[96, 97]])
    (by decide +kernel)
  refine ⟨⟨b, hb⟩, fun h => ?_⟩
  obtain ⟨a, ha, h⟩ := h s b hs hb .active (Draw.cycle [])
  obtain rfl := Except.ok.inj ((answer_some b _ _).symm.trans ha)
  -- There is one medium, which is written with both numbers.
  obtain ⟨m, hm, hnumbers⟩ := List.map_eq_singleton_iff.mp hanswered
  obtain ⟨offered, hmedium, hformats⟩ := List.map_eq_singleton_iff.mp hoffered
  rw [media_toSession_answering, hm, hmedium] at h
  obtain ⟨_, hsame, hsub⟩ := h 0 _ rfl
  obtain rfl := Option.some.inj hsame
  rw [hformats] at hsub
  have hboth : 97 ∈ Payload.numbers (m.answer.toCapability.toSection []).medium.formats := by
    rw [hnumbers]
    decide
  exact absurd (hsub hboth) (by decide)

end Bundle

end OfferAnswer
