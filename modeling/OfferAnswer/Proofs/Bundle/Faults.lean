/-
OfferAnswer/Proofs/Bundle/Faults.lean

What is said of texts that stand for no bundle.

A text that is no description, and a description that means no bundle, are
refused with an error of their own kind.  There is one exception.  Formats and
the targets of retransmissions are kept as texts by the description and made
numbers by the bundle; one with too many digits is refused with the error of
the number, which is neither of the two.  `reportsOwnErrors_iff` says when a
reader comes to such a number.
-/
import OfferAnswer.Bundle.Basic
import OfferAnswer.Proofs.Decimal
import OfferAnswer.Proofs.Outcome

namespace OfferAnswer

open Outcome

/-! ### Numbers -/

/-- Digits, but too many of them to be read as a number. -/
def Decimal.IsOverlong (t : Text) : Prop := isDigits t = true ∧ maxDigits < t.length

theorem Payload.exists_number?_eq_error_iff {t : Text} :
    (∃ f, number? t = .error f) ↔ Decimal.IsOverlong t := by
  unfold number?
  by_cases hd : Decimal.isDigits t
  · rw [if_pos hd, Decimal.IsOverlong, Decimal.ofText?, Decimal.splitSign_of_isDigits hd]
    by_cases hlength : Decimal.maxDigits < t.length <;> simp [hd, hlength]
  · simp [hd, Decimal.IsOverlong]

/-! ### Payloads -/

namespace Payload

variable {as : AttributeList} {formats : List Text}

/-- A payload type for retransmission whose target is an overlong number. -/
def RepeatsOverlong (parameters : OrderedMap Int (OrderedMap Text Text)) (entry : Int × RtpMap) :
    Prop :=
  (entry.2.codec == .known .rtx) = true ∧
    ∃ apt, (parameters.get? entry.1).bind (·.get? "apt".toList) = some apt ∧ Decimal.IsOverlong apt

theorem exists_addRetransmission_eq_error_iff
    (parameters : OrderedMap Int (OrderedMap Text Text)) (found : OrderedMap Int Int)
    (entry : Int × RtpMap) :
    (∃ f, addRetransmission parameters found entry = .error f)
      ↔ RepeatsOverlong parameters entry := by
  unfold addRetransmission RepeatsOverlong
  by_cases hcodec : (entry.2.codec == .known .rtx) = true
  · rw [if_pos hcodec]
    cases (parameters.get? entry.1).bind (·.get? "apt".toList) with
    | none => simp [hcodec]
    | some apt =>
      simp only [hcodec, true_and, Option.some.injEq, exists_eq_left',
        ← exists_number?_eq_error_iff]
      cases number? apt with
      | error f => simp
      | ok n => cases n <;> simp
  · simp [hcodec]

/-- Joining the payloads fails only at a number with too many digits: a format,
or the target of a retransmission. -/
theorem exists_ofAttributes_eq_error_iff : (∃ f, ofAttributes formats as = .error f) ↔
    (∃ entry ∈ (codecs as).entries, RepeatsOverlong (parameterSets as) entry)
      ∨ ∃ format ∈ formats, Decimal.IsOverlong format := by
  have hretransmissions : (∃ f, retransmissions as = .error f)
      ↔ ∃ entry ∈ (codecs as).entries, RepeatsOverlong (parameterSets as) entry :=
    exists_foldlM_eq_error_iff (exists_addRetransmission_eq_error_iff _)
  have hformats : (∃ f, formats.mapM number? = .error f)
      ↔ ∃ format ∈ formats, Decimal.IsOverlong format := by
    simp only [exists_mapM_eq_error_iff, exists_number?_eq_error_iff]
  rw [← hretransmissions, ← hformats, ofAttributes]
  cases retransmissions as with
  | error f => simp
  | ok found => cases formats.mapM number? <;> simp

end Payload

/-! ### Media -/

/-- A medium with a format or a target of a retransmission that is an overlong
number. -/
def MediaSection.NamesOverlong (m : MediaSection) : Prop :=
  (∃ entry ∈ (Payload.codecs m.attributes).entries,
      Payload.RepeatsOverlong (Payload.parameterSets m.attributes) entry)
    ∨ ∃ format ∈ m.medium.formats, Decimal.IsOverlong format

/-- A medium is refused for a number if it names one that is overlong, and has
its identifier. -/
theorem RtpMedia.exists_ofSection_eq_number_iff {m : MediaSection} :
    (∃ f, ofSection m = .error (.number f)) ↔
      (m.attributes.findSome? (Attribute.labelled? .mid)).isSome ∧ m.NamesOverlong := by
  have hdirection : ∀ f, MediaDirection.ofAttributes m.attributes ≠ .error (.number f) := by
    intro f
    unfold MediaDirection.ofAttributes
    split <;> simp
  rw [MediaSection.NamesOverlong, ← Payload.exists_ofAttributes_eq_error_iff, ofSection]
  cases m.attributes.findSome? (Attribute.labelled? .mid) with
  | none => simp
  | some mid =>
    simp [bind_eq_error, mapError_eq_error, mapError_eq_ok, hdirection]

/-! ### Sessions -/

/-- A reader of the session comes to an overlong number: the session has what
the transport needs, and the media in front of the one that names the number
can be read. -/
structure Session.MeetsOverlong (s : Session) : Prop where
  transport : ∃ first ∈ s.media.head?,
    ((first.attributes ++ s.attributes).findSome? (Attribute.labelled? .iceUser)).isSome
      ∧ ((first.attributes ++ s.attributes).findSome? (Attribute.labelled? .icePassword)).isSome
  media : ∃ before m after, s.media = before ++ m :: after
    ∧ (∀ m ∈ before, ∃ read, RtpMedia.ofSection m = .ok read)
    ∧ (m.attributes.findSome? (Attribute.labelled? .mid)).isSome ∧ m.NamesOverlong

namespace Bundle

theorem exists_ofSession_eq_number_iff {s : Session} :
    (∃ f, ofSession s = .error (.number f)) ↔ s.MeetsOverlong := by
  have hmedia : (∃ f, s.media.mapM RtpMedia.ofSection = .error (.number f))
      ↔ ∃ before m after, s.media = before ++ m :: after
        ∧ (∀ m ∈ before, ∃ read, RtpMedia.ofSection m = .ok read)
        ∧ (m.attributes.findSome? (Attribute.labelled? .mid)).isSome ∧ m.NamesOverlong := by
    simp only [← RtpMedia.exists_ofSection_eq_number_iff, mapM_eq_error]
    constructor
    · rintro ⟨f, before, m, after, hs, hbefore, hm⟩
      exact ⟨before, m, after, hs, hbefore, f, hm⟩
    · rintro ⟨before, m, after, hs, hbefore, f, hm⟩
      exact ⟨f, before, m, after, hs, hbefore, hm⟩
  have htransport : (∃ f, ofSession s = .error (.number f)) ↔
      (∃ first ∈ s.media.head?,
        ((first.attributes ++ s.attributes).findSome? (Attribute.labelled? .iceUser)).isSome
        ∧ ((first.attributes ++ s.attributes).findSome?
          (Attribute.labelled? .icePassword)).isSome)
      ∧ ∃ f, s.media.mapM RtpMedia.ofSection = .error (.number f) := by
    unfold ofSession
    cases s.media with
    | nil => simp
    | cons first rest =>
      simp only [← List.findSome?_append, List.head?_cons, Option.mem_some, exists_eq_left']
      cases (first.attributes ++ s.attributes).findSome? (Attribute.labelled? .iceUser) with
      | none => simp
      | some user =>
        cases (first.attributes ++ s.attributes).findSome? (Attribute.labelled? .icePassword) with
        | none => simp
        | some password => simp [bind_eq_error]
  rw [htransport, hmedia]
  exact ⟨fun h => ⟨h.1, h.2⟩, fun h => ⟨h.transport, h.media⟩⟩

/-- Whether the error is one of descriptions or of their meaning. -/
def Error.isOwn : Error → Bool
  | .document _ => true
  | .meaning (.number _) => false
  | .meaning _ => true

/-- Whatever is refused is refused with an error of descriptions or of their
meaning. -/
def ReportsOwnErrors (x : Except Error Bundle) : Prop := ∀ e, x = .error e → e.isOwn = true

theorem reportsOwnErrors_bind_iff (x : Except Document.Error Session) :
    ReportsOwnErrors (x.mapError .document >>= fun s => (ofSession s).mapError .meaning)
      ↔ ∀ s, x = .ok s → ¬ s.MeetsOverlong := by
  cases x with
  | error e =>
    refine iff_of_true (fun _ h => ?_) fun _ h => nomatch h
    obtain rfl := Except.error.inj h
    rfl
  | ok s =>
    have hmeaning : ReportsOwnErrors ((ofSession s).mapError .meaning)
        ↔ ¬ ∃ f, ofSession s = .error (.number f) := by
      unfold ReportsOwnErrors
      cases ofSession s with
      | ok b => simp [Except.mapError]
      | error fault => cases fault <;> simp [Except.mapError, Error.isOwn]
    rw [Except.mapError, ok_bind, hmeaning, exists_ofSession_eq_number_iff]
    exact ⟨fun h _ hs => Except.ok.inj hs ▸ h, fun h => h s rfl⟩

/-- The bundle that a text stands for, or the bytes of one. -/
def ofRaw : Text ⊕ List UInt8 → Except Error Bundle := Sum.elim ofText ofBytes

/-- A text or bytes are refused with an error of descriptions or of their
meaning, unless they are a description whose reader comes to an overlong
number. -/
theorem reportsOwnErrors_iff (raw : Text ⊕ List UInt8) : ReportsOwnErrors (ofRaw raw) ↔
    ∀ s, raw.elim Session.ofText Session.ofBytes = .ok s → ¬ s.MeetsOverlong := by
  cases raw with
  | inl t => exact reportsOwnErrors_bind_iff (Session.ofText t)
  | inr bytes => exact reportsOwnErrors_bind_iff (Session.ofBytes bytes)

/-- A description of an audio with a single format, which is one digit too
long. -/
def longFormat : Text :=
  "v=0\r\no=- 1 1 IN IP4 127.0.0.1\r\ns=-\r\nt=0 0\r\nm=audio 9 RTP/AVP ".toList
    ++ List.replicate 4301 '0' ++ "\r\na=ice-ufrag:u\r\na=ice-pwd:p\r\na=mid:0\r\n".toList

/-- The description is well-formed, and refused with the error of the number. -/
theorem not_reportsOwnErrors_longFormat :
    (∃ s, Session.ofText longFormat = .ok s) ∧ ¬ ReportsOwnErrors (ofRaw (.inl longFormat)) := by
  obtain ⟨e, he, hown⟩ := exists_error_of_any (x := ofText longFormat)
    (P := fun e => e.isOwn = false) (by decide +kernel)
  refine ⟨?_, fun h => absurd (h e he) (by simp [hown])⟩
  -- The error is none of the description, so there is a session.
  rcases bind_eq_error.mp he with hdocument | ⟨s, hs, -⟩
  · obtain ⟨_, -, rfl⟩ := mapError_eq_error.mp hdocument
    exact nomatch hown
  · exact ⟨s, mapError_eq_ok.mp hs⟩

end Bundle

end OfferAnswer
