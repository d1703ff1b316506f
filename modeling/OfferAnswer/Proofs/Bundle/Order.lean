/-
OfferAnswer/Proofs/Bundle/Order.lean

The media of a bundle in another order.

All media share one transport, and a written bundle repeats it in each of
them.  So it does not matter which of them comes first: with its media sections
in any order, a written bundle means the bundle with its media in that order
(`ofSession_picked`).
-/
import OfferAnswer.Proofs.Bundle.Written

namespace OfferAnswer

/-! ### Orders -/

section

variable {α β : Type} {is : List Nat} {xs : List α}

/-- The members of a list at some places, in the order of the places. -/
def picked (is : List Nat) (xs : List α) : List α := is.filterMap (xs[·]?)

theorem picked_map (f : α → β) (is : List Nat) (xs : List α) :
    picked is (xs.map f) = (picked is xs).map f := by
  rw [picked, picked, List.map_filterMap]
  exact List.filterMap_congr fun i _ => List.getElem?_map

theorem picked_range (xs : List α) : picked (List.range xs.length) xs = xs := by
  induction xs with
  | nil => rfl
  | cons x xs ih =>
    rw [picked, List.length_cons, List.range_succ_eq_map, List.filterMap_cons, List.filterMap_map]
    exact congrArg (x :: ·) ih

/-- In every order of the places each member is picked once. -/
theorem picked_perm (h : is.Perm (List.range xs.length)) : (picked is xs).Perm xs :=
  (h.filterMap (xs[·]?)).trans (.of_eq (picked_range xs))

end

namespace Bundle

open Text Outcome

variable {b : Bundle} {is : List Nat}

/-! ### Reading in another order -/

/-- The sections of some of the media mean the bundle with these media. -/
theorem Sound.ofSession_toSection (h : b.Sound) {ms : List RtpMedia} (hne : ms ≠ [])
    (hms : ms ⊆ b.media) (hd : ∀ m ∈ b.media, (m.payloads.map Payload.payloadType).Nodup) :
    ofSession { b.toSession with media := ms.map fun m => m.toSection b.transportAttributes }
      = .ok { b with media := ms.map fun m => { m with port := 9 } } := by
  refine ofSession_of_isSectionOf hne (fun m hm => ⟨h.media m (hms hm), hd m (hms hm)⟩) rfl
    (sessionAttributes_eq h.media_ne_nil) ?_
  rw [List.forall₂_map_right_iff, List.forall₂_same]
  intro m _
  refine ⟨m.simulcasts, ?_⟩
  rw [← RtpMedia.attributes_eq]
  rfl

/-- Of the attributes of the session itself only one is a group. -/
theorem ofKind_group_toSession (h : b.media ≠ []) :
    b.toSession.attributes.ofKind .group = [.group b.bundleGroup] := by
  have hname : Text.sameLower (Attribute.group b.bundleGroup).name
      (Vocabulary.spelling Attribute.Kind.group) = true := Text.sameLower_iff.mpr rfl
  have hattributes : b.toSession.attributes = b.sessionAttributesWith [b.bundleGroup] :=
    sessionAttributes_eq h
  rw [hattributes, AttributeList.ofKind, AttributeList.named, List.filter_filter]
  by_cases hl : b.iceLite <;> by_cases hx : b.mixedExtensions <;>
    simp [sessionAttributesWith, hl, hx, hname, Attribute.kind?]

/-- The transport is bundled: with its media sections in any order, a written
bundle whose media have different payload types means the bundle with its media
in that order, on ports that stand for none.  Its session groups all media, in
their own order. -/
theorem ofSession_picked (hb : b.Reachable)
    (hd : ∀ m ∈ b.media, (m.payloads.map Payload.payloadType).Nodup) :
    (∀ is : List Nat, is.Perm (List.range b.media.length) →
      ofSession { b.toSession with media := picked is b.toSession.media }
        = .ok { b with media := (picked is b.media).map fun m => { m with port := 9 } })
    ∧ b.toSession.attributes.ofKind .group
      = [.group { meaning := .known .bundle, mids := b.media.map RtpMedia.mid }] := by
  have h := hb.sound
  refine ⟨fun is his => ?_, ofKind_group_toSession h.media_ne_nil⟩
  have hperm : (picked is b.media).Perm b.media := picked_perm his
  have hsections : picked is b.toSession.media
      = (picked is b.media).map fun m => m.toSection b.transportAttributes := picked_map ..
  rw [hsections]
  exact h.ofSession_toSection (fun he => h.media_ne_nil (he ▸ hperm).symm.eq_nil) hperm.subset hd

/-- A session whose transport is told by its audio, the first of two media. -/
def twoMedia : Text :=
  "v=0\r\no=- 7 2 IN IP4 x\r\ns=-\r\nt=0 0\r\na=fingerprint:sha-1 01\r\n".toList
    ++ "m=audio 5000 RTP/SAVPF 0\r\na=ice-ufrag:u\r\na=ice-pwd:p\r\na=mid:a\r\n".toList
    ++ "a=setup:active\r\na=fingerprint:sha-1 02\r\na=rtpmap:0 PCMU/8000\r\n".toList
    ++ "m=video 5002 RTP/SAVPF 96\r\na=mid:b\r\na=rtpmap:96 VP8/90000\r\n".toList

theorem ofSession_picked_twoMedia : ∃ b : Bundle, ofText twoMedia = .ok b
    ∧ ofSession { b.toSession with media := picked [1, 0] b.toSession.media }
      = .ok { b with media := (picked [1, 0] b.media).map fun m => { m with port := 9 } }
    ∧ b.toSession.attributes.ofKind .group
      = [.group { meaning := .known .bundle, mids := b.media.map RtpMedia.mid }] := by
  obtain ⟨b, hb, hd, hlength⟩ := exists_ok_of_any (x := ofText twoMedia) (P := fun b =>
    (∀ m ∈ b.media, (m.payloads.map Payload.payloadType).Nodup) ∧ b.media.length = 2)
    (by decide +kernel)
  obtain ⟨horder, hgroup⟩ := ofSession_picked (.read (.inl ⟨twoMedia, hb⟩)) hd
  exact ⟨b, hb, horder [1, 0] (by rw [hlength]; decide), hgroup⟩

end Bundle

end OfferAnswer
