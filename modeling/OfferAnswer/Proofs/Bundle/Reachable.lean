/-
OfferAnswer/Proofs/Bundle/Reachable.lean

Bundles that are read, answered and restricted.

What reading assures of a bundle (`Sound`) is kept by answering it, whatever is
drawn, and by restricting it, and so holds of every bundle that these lead to.
-/
import OfferAnswer.Bundle.Answer
import OfferAnswer.Proofs.Bundle.Media

namespace OfferAnswer

open Text Outcome AttributeList

namespace Bundle

variable {a b : Bundle}

/-! ### What is reached -/

/-- A bundle that is read from a text, or from the bytes of one. -/
def IsRead (b : Bundle) : Prop := (∃ t, ofText t = .ok b) ∨ ∃ bytes, ofBytes bytes = .ok b

/-- Bundles that are read, and what comes of answering and restricting them. -/
inductive Reachable : Bundle → Prop
  | read {b : Bundle} (h : b.IsRead) : Reachable b
  | answer {b a : Bundle} {role : Option SetupRole} {e : Entropy} (hb : Reachable b)
    (h : (b.answer role e).1 = .ok a) : Reachable a
  | toCapability {b : Bundle} (hb : Reachable b) : Reachable b.toCapability

/-- What reading assures of a bundle. -/
structure Sound (b : Bundle) : Prop where
  origin : b.origin.WellFormed InLine
  transport : ∀ a ∈ b.transportAttributes, a.WellFormed InLine
  media_ne_nil : b.media ≠ []
  media : ∀ m ∈ b.media, m.Sound

/-! ### Reading -/

/-- The bundle of a session with its first medium, once what it must have is
known. -/
def ofParts (s : Session) (first : MediaSection) (iceUser icePassword : Text)
    (media : List RtpMedia) : Bundle where
  id := s.origin.id
  version := s.origin.version
  iceUser
  icePassword
  iceLite := s.attributes.hasFlag .iceLite
  iceOptions := ((first.attributes ++ s.attributes).findSome? Attribute.iceOptions?).getD []
  candidates := first.attributes.candidates
  certificates := first.attributes.certificates ++ s.attributes.certificates
  role := ((first.attributes ++ s.attributes).findSome? Attribute.setup?).getD .actpass
  mixedExtensions :=
    first.attributes.hasFlag .extmapAllowMixed || s.attributes.hasFlag .extmapAllowMixed
  media

/-- The transport is that of the first medium, and where that says nothing,
that of the session. -/
theorem ofSession_eq_ok_iff {s : Session} : ofSession s = .ok b ↔
    ∃ first rest user password ms, s.media = first :: rest
      ∧ (first.attributes ++ s.attributes).findSome? (Attribute.labelled? .iceUser) = some user
      ∧ (first.attributes ++ s.attributes).findSome? (Attribute.labelled? .icePassword)
        = some password
      ∧ s.media.mapM RtpMedia.ofSection = .ok ms ∧ ofParts s first user password ms = b := by
  unfold ofSession
  constructor
  · intro h
    split at h
    · simp at h
    · next first rest hmedia =>
      simp only [← List.findSome?_append] at h
      split at h
      · simp at h
      · simp at h
      · next user password huser hpassword =>
        obtain ⟨ms, hms, h⟩ := bind_eq_ok.mp h
        exact ⟨first, rest, user, password, ms, hmedia, huser, hpassword, hms, pure_eq_ok.mp h⟩
  · rintro ⟨first, rest, user, password, ms, hmedia, huser, hpassword, hms, rfl⟩
    rw [hmedia] at hms
    simp only [hmedia, ← List.findSome?_append, huser, hpassword, hms, ok_bind]
    rfl

theorem origin_wellFormed (hid : Decimal.Fits (.upTo Origin.maxNumber) b.id)
    (hversion : Decimal.Fits (.upTo Origin.maxNumber) b.version) :
    b.origin.WellFormed InLine where
  user := by simp [origin]
  id := hid
  version := hversion
  address := (isPlainWord_iff.mp (by decide : isPlainWord "127.0.0.1".toList = true)).1.of_plain

/-- The attributes of the transport, by what they were read from. -/
theorem transport_wellFormed (huser : Over InLine b.iceUser)
    (hpassword : Over InLine b.icePassword)
    (hoptions : b.iceOptions ≠ [] → (Attribute.iceOptions b.iceOptions).WellFormed InLine)
    (hcandidates : ∀ c ∈ b.candidates, c.WellFormed InLine)
    (hcertificates : ∀ h ∈ b.certificates, h.WellFormed InLine) :
    ∀ a ∈ b.transportAttributes, a.WellFormed InLine := by
  simp only [transportAttributes, List.forall_mem_append, List.forall_mem_map,
    List.forall_mem_cons]
  refine ⟨⟨⟨⟨⟨huser, hpassword, List.forall_mem_nil _⟩, ?_⟩, hcandidates⟩, hcertificates⟩, trivial,
    List.forall_mem_nil _⟩
  split
  · exact List.forall_mem_nil _
  · next he => exact List.forall_mem_singleton.mpr (hoptions (by simpa using he))

theorem sound_of_ofSession {s : Session} (hs : s.draft.Sound) (h : ofSession s = .ok b) :
    b.Sound := by
  obtain ⟨first, rest, user, password, ms, hmedia, huser, hpassword, hms, rfl⟩ :=
    ofSession_eq_ok_iff.mp h
  have hfirst : first.Sound := hs.media first (hmedia ▸ List.mem_cons_self)
  have hinner := hfirst.attributes
  have houter : ∀ a ∈ s.attributes, a.WellFormed InLine := fun a ha =>
    hs.own (.attr a) (List.mem_append_right _ (List.mem_append_right _ (List.mem_map_of_mem ha)))
  have hboth := List.forall_mem_append.mpr ⟨hinner, houter⟩
  have horigin : s.origin.WellFormed InLine :=
    hs.own (.origin s.origin) (by simp [Session.draft, Draft.ownBefore])
  refine ⟨origin_wellFormed horigin.id horigin.version, transport_wellFormed ?_ ?_ ?_ ?_ ?_, ?_, ?_⟩
  · exact hboth _ (mem_of_findSome? Attribute.labelled?_eq_some huser)
  · exact hboth _ (mem_of_findSome? Attribute.labelled?_eq_some hpassword)
  · -- options that are missing count as none, and none are not written
    intro hne
    cases hoptions : (first.attributes ++ s.attributes).findSome? Attribute.iceOptions? with
    | none => simp [ofParts, hoptions] at hne
    | some os =>
      rw [ofParts, hoptions]
      exact hboth _ (mem_of_findSome? Attribute.iceOptions?_eq_some hoptions)
  · exact fun c hc => hinner _ (mem_of_mem_filterMap Attribute.candidate?_eq_some hc)
  · -- certificates of both levels
    refine List.forall_mem_append.mpr ⟨fun c hc => ?_, fun c hc => ?_⟩
    · exact hinner _ (mem_of_mem_filterMap Attribute.certificate?_eq_some hc)
    · exact houter _ (mem_of_mem_filterMap Attribute.certificate?_eq_some hc)
  · -- each section is read as one medium, and there is a first section
    rintro rfl
    rw [hmedia] at hms
    have hlength := (mapM_eq_ok.mp hms).length_eq
    simp at hlength
  · intro m hm
    obtain ⟨x, hx, hread⟩ := mem_of_mapM hms m hm
    exact RtpMedia.sound_of_ofSection (hs.media x hx) hread

theorem IsRead.sound (h : b.IsRead) : b.Sound := by
  have hsession : ∃ t s, Session.ofText t = .ok s ∧ ofSession s = .ok b := by
    rcases h with ⟨t, h⟩ | ⟨bytes, h⟩ <;> obtain ⟨s, hs, h⟩ := bind_eq_ok.mp h
    · exact ⟨t, s, mapError_eq_ok.mp hs, mapError_eq_ok.mp h⟩
    · obtain ⟨t, ht⟩ := Session.exists_text_of_bytes (mapError_eq_ok.mp hs)
      exact ⟨t, s, ht, mapError_eq_ok.mp h⟩
  obtain ⟨t, s, hs, h⟩ := hsession
  exact sound_of_ofSession (Session.sound_of_ofText hs) h

/-! ### The other end -/

theorem over_token {length : Nat} {e : Entropy} :
    Over InLine (Draw.token Draw.alphanumeric length e).1 := by
  refine over_inLine.mpr fun hm => ?_
  exact absurd (Draw.mem_of_mem_token hm) (by decide)

theorem fits_drawn (e : Entropy) :
    Decimal.Fits (.upTo Origin.maxNumber) ((drawCredentials e).1.id : Nat) := by
  have hlt : (drawCredentials e).1.id < idBound := Nat.mod_lt _ (by decide)
  have hbound : (idBound : Int) ≤ Origin.maxNumber := by decide
  exact Decimal.fits_upTo (by decide) (by omega) (by omega)

/-- An answer depends on what is drawn for it, and on nothing else. -/
theorem exists_answering {role : Option SetupRole} {e : Entropy}
    (h : (b.answer role e).1 = .ok a) : ∃ r, a = b.answering r (drawCredentials e).1 := by
  obtain ⟨r, -, ha⟩ := map_eq_ok.mp h
  exact ⟨r, ha.symm⟩

theorem Sound.answering (hb : b.Sound) (r : SetupRole) (e : Entropy) :
    (b.answering r (drawCredentials e).1).Sound where
  origin := by
    have hone : Decimal.Fits (.upTo Origin.maxNumber) 1 :=
      Decimal.fits_upTo (by decide) (by decide) (by decide)
    exact origin_wellFormed (fits_drawn e) hone
  transport := transport_wellFormed over_token over_token (fun h => absurd rfl h)
    (List.forall_mem_nil _) (List.forall_mem_nil _)
  media_ne_nil h := hb.media_ne_nil (List.map_eq_nil_iff.mp h)
  media := List.forall_mem_map.mpr fun m hm => (hb.media m hm).answer

theorem Sound.answer (hb : b.Sound) {role : Option SetupRole} {e : Entropy}
    (h : (b.answer role e).1 = .ok a) : a.Sound := by
  obtain ⟨r, rfl⟩ := exists_answering h
  exact hb.answering r e

theorem Sound.toCapability (hb : b.Sound) : b.toCapability.Sound where
  origin := hb.origin
  transport := hb.transport
  media_ne_nil h := hb.media_ne_nil (List.map_eq_nil_iff.mp h)
  media := List.forall_mem_map.mpr fun m hm => (hb.media m hm).toCapability

/-- What is reached is sound. -/
theorem Reachable.sound (h : b.Reachable) : b.Sound := by
  induction h with
  | read h => exact h.sound
  | answer _ h ih => exact ih.answer h
  | toCapability _ ih => exact ih.toCapability

end Bundle

end OfferAnswer
