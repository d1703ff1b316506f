/-
OfferAnswer/Proofs/Document/Equality.lean

Equality of documents is reflexive.

A session equals itself with every bandwidth under its own spelling, and the
two are written alike.
-/
import OfferAnswer.Proofs.Attribute.Equality
import OfferAnswer.Proofs.Document.Written

namespace OfferAnswer

deriving instance ReflBEq for Connection, Bandwidth, EncryptionKey
deriving instance ReflBEq for Medium, Origin
deriving instance ReflBEq for ActiveTime, Repetition, Adjustment
deriving instance ReflBEq for TimeSection, MediaSection, SessionDetails
deriving instance ReflBEq for Draft

/-! ### Spellings of bandwidths -/

theorem Bandwidths.fields_rekeyed {φ : Type} {bs : Bandwidths} (h : bs.Keyed) (f : Bandwidth → φ) :
    bs.rekeyed.entries.map (fun e => f e.2) = bs.entries.map fun e => f e.2 := by
  rw [Bandwidths.entries_rekeyed h, List.map_map]
  rfl

namespace MediaSection

variable {m : MediaSection}

theorem fields_rekeyed (h : m.bandwidths.Keyed) : m.rekeyed.fields = m.fields := by
  rw [fields, fields, rekeyed, Bandwidths.fields_rekeyed h]

theorem rekeyed_beq (h : m.bandwidths.Keyed) : (m.rekeyed == m) = true := by
  obtain ⟨medium, title, connection, bandwidths, key, attributes⟩ := m
  show (medium == medium && (title == title && (connection == connection
    && (bandwidths.rekeyed == bandwidths && (key == key && attributes == attributes))))) = true
  simp [Bandwidths.rekeyed_beq h]

theorem map_rekeyed_beq {ms : List MediaSection} (h : ∀ m ∈ ms, m.bandwidths.Keyed) :
    (ms.map rekeyed == ms) = true := by
  induction ms with
  | nil => rfl
  | cons m ms ih =>
    rw [List.forall_mem_cons] at h
    rw [List.map_cons, List.cons_beq_cons, rekeyed_beq h.1, ih h.2]
    rfl

end MediaSection

namespace Session

variable {s : Session}

theorem fields_rekeyed (hs : s.bandwidths.Keyed) (hm : ∀ m ∈ s.media, m.bandwidths.Keyed) :
    s.rekeyed.draft.fields = s.draft.fields := by
  have hmedia : (s.media.map MediaSection.rekeyed).flatMap (fun m => m.fields.map .media)
      = s.media.flatMap fun m => m.fields.map DocumentField.media := by
    rw [List.flatMap_map]
    exact List.flatMap_congr fun m hm' => by rw [MediaSection.fields_rekeyed (hm m hm')]
  have hown : s.rekeyed.draft.ownBefore = s.draft.ownBefore :=
    congrArg (List.append _) (Bandwidths.fields_rekeyed hs SessionField.bandwidth)
  rw [Draft.fields, hown]
  exact congrArg _ hmedia

theorem text_rekeyed (hs : s.bandwidths.Keyed) (hm : ∀ m ∈ s.media, m.bandwidths.Keyed) :
    s.rekeyed.text = s.text := by
  rw [text, Draft.text, fields_rekeyed hs hm]
  rfl

theorem rekeyed_beq (hs : s.bandwidths.Keyed) (hm : ∀ m ∈ s.media, m.bandwidths.Keyed) :
    (s.rekeyed == s) = true := by
  have hmedia := MediaSection.map_rekeyed_beq hm
  have hdetails : (s.rekeyed.toSessionDetails == s.toSessionDetails) = true := by
    show (s.information == s.information && (s.uri == s.uri && (s.email == s.email
      && (s.phone == s.phone && (s.connection == s.connection
        && (s.bandwidths.rekeyed == s.bandwidths && (s.times == s.times && (s.key == s.key
          && (s.attributes == s.attributes
            && s.media.map MediaSection.rekeyed == s.media))))))))) = true
    simp [Bandwidths.rekeyed_beq hs, hmedia]
  show (s.rekeyed.toSessionDetails == s.toSessionDetails && (some s.version == some s.version
    && (some s.origin == some s.origin && some s.name == some s.name))) = true
  simp [hdetails]

end Session

end OfferAnswer
