/-
OfferAnswer/Proofs/Bundle/Noninterference.lean

What of a session a bundle depends on.

A bundle is made of the origin, and of the media lines, the bandwidths and the
attributes of some kinds.  Two sessions that agree on these, kind by kind, mean
equal bundles, or are refused with the same error (`ofSession_of_agrees`): it
does not matter how attributes of different kinds are interleaved, nor what
else there is.

Sessions agree if what they say is equal, and equal tokens may differ in case.
So every part of a bundle is shown to be the same, or equal, for both sessions,
from the views of their attributes up.
-/
import OfferAnswer.Proofs.Attribute.Equality
import OfferAnswer.Proofs.Attribute.View
import OfferAnswer.Proofs.Bundle.Payload
import OfferAnswer.Proofs.Document.Equality
import OfferAnswer.Bundle.Basic

namespace OfferAnswer

open Outcome
open Attribute (Kind Similar)

/-! ### Agreement -/

/-- The kinds of attributes that a bundle is made of. -/
def Bundle.kinds : List Kind := [
  .label .mid, .rtpMap, .formatParameters, .feedback, .extension, .flag (.direction .sendRecv),
  .flag (.direction .sendOnly), .flag (.direction .recvOnly), .flag (.direction .inactive),
  .streamId, .source, .sourceGroup, .flag .rtcpMux, .flag .rtcpMuxOnly, .flag .rtcpReducedSize,
  .label .iceUser, .label .icePassword, .iceOptions, .flag .iceLite, .setup, .candidate,
  .certificate, .flag .extmapAllowMixed]

/-- The attributes under the name of each kind that a bundle is made of are
equal, in their order. -/
def AttributeList.Agrees (as as' : AttributeList) : Prop :=
  ∀ k ∈ Bundle.kinds, (as.named (Vocabulary.spelling k) == as'.named (Vocabulary.spelling k)) = true

instance (as as' : AttributeList) : Decidable (as.Agrees as') :=
  List.decidableBAll _ Bundle.kinds

structure MediaSection.Agrees (m m' : MediaSection) : Prop where
  medium : (m.medium == m'.medium) = true
  bandwidths : (m.bandwidths == m'.bandwidths) = true
  attributes : m.attributes.Agrees m'.attributes

instance (m m' : MediaSection) : Decidable (m.Agrees m') :=
  decidable_of_iff (_ ∧ _ ∧ _) ⟨fun h => ⟨h.1, h.2.1, h.2.2⟩, fun h => ⟨h.1, h.2, h.3⟩⟩

/-- Two sessions with the same number of media that say the same in all that a
bundle is made of. -/
structure Session.Agrees (s s' : Session) : Prop where
  origin : (s.origin == s'.origin) = true
  attributes : s.attributes.Agrees s'.attributes
  media : List.Forall₂ MediaSection.Agrees s.media s'.media

instance (s s' : Session) : Decidable (s.Agrees s') :=
  decidable_of_iff (_ ∧ _ ∧ _) ⟨fun h => ⟨h.1, h.2.1, h.2.2⟩, fun h => ⟨h.1, h.2, h.3⟩⟩

/-! ### Views -/

theorem optionRel_of_beq {α : Type} [BEq α] {o o' : Option α} (h : (o == o') = true) :
    Option.Rel (fun x y => (x == y) = true) o o' := by
  cases o <;> cases o'
  · exact .none
  · exact nomatch h
  · exact nomatch h
  · exact .some h

namespace AttributeList

variable {α : Type} {as as' : AttributeList} {k : Kind} {view : Attribute → Option α}
  {mk : α → Attribute}

/-- A view of one kind finds all that it finds under the name of the kind. -/
theorem filterMap_named (as : AttributeList) (hview : ∀ {a x}, view a = some x ↔ a = mk x)
    (hmk : ∀ x, (mk x).kind? = some k) :
    (as.named (Vocabulary.spelling k)).filterMap view = as.filterMap view := by
  rw [named, List.filterMap_filter]
  refine List.filterMap_congr fun a _ => ?_
  split
  · rfl
  · next hne =>
    cases hx : view a with
    | none => rfl
    | some x =>
      obtain rfl := hview.mp hx
      exact absurd (Text.sameLower_iff.mpr (by rw [Attribute.name_of_kind? (hmk x)])) hne

namespace Agrees

section

variable [BEq α] (h : as.Agrees as') (hk : k ∈ Bundle.kinds)
  (hview : ∀ {a x}, view a = some x ↔ a = mk x) (hmk : ∀ x, (mk x).kind? = some k)
  (hsimilar : ∀ {a b}, Similar a b → (view a == view b) = true)
include h hk hview hmk hsimilar

/-- A view of one kind finds equal values. -/
theorem filterMap_beq : (as.filterMap view == as'.filterMap view) = true := by
  rw [← filterMap_named as hview hmk, ← filterMap_named as' hview hmk]
  refine forall₂_beq_iff.mpr (List.rel_filterMap (fun a b hab => ?_) (forall₂_beq_iff.mp (h k hk)))
  exact optionRel_of_beq (hsimilar (Attribute.similar_of_beq hab))

theorem findSome?_beq : (as.findSome? view == as'.findSome? view) = true := by
  have hall := forall₂_beq_iff.mp (h.filterMap_beq hk hview hmk hsimilar)
  rw [← List.head?_filterMap, ← List.head?_filterMap]
  generalize as.filterMap view = xs, as'.filterMap view = ys at hall
  cases hall with
  | nil => rfl
  | cons hxy _ => exact hxy

end

theorem hasKind_eq (h : as.Agrees as') (hk : k ∈ Bundle.kinds) : as.hasKind k = as'.hasKind k := by
  have hlength := (forall₂_beq_iff.mp (h k hk)).length_eq
  have hiff : ∀ bs : AttributeList, bs.hasKind k = true
      ↔ 0 < (bs.named (Vocabulary.spelling k)).length := by
    simp [hasKind, has, named, List.length_pos_iff]
  rw [Bool.eq_iff_iff, hiff, hiff, hlength]

/-! The views of a bundle, each of its own kind.  Where no tokens are compared,
what they find is the same. -/

variable (h : as.Agrees as')
include h

theorem labelled?_eq {l : Attribute.Label} (hk : .label l ∈ Bundle.kinds) :
    as.findSome? (Attribute.labelled? l) = as'.findSome? (Attribute.labelled? l) :=
  eq_of_beq <| h.findSome?_beq hk Attribute.labelled?_eq_some (fun _ => rfl) fun hab => by
    cases hab <;> exact BEq.rfl

theorem setup?_eq : as.findSome? Attribute.setup? = as'.findSome? Attribute.setup? :=
  eq_of_beq <| h.findSome?_beq (k := .setup) (by decide) Attribute.setup?_eq_some (fun _ => rfl)
    fun hab => by cases hab <;> exact BEq.rfl

theorem extensions_eq : as.extensions = as'.extensions :=
  eq_of_beq <| h.filterMap_beq (k := .extension) (by decide) Attribute.extension?_eq_some
    (fun _ => rfl) fun hab => by cases hab <;> exact BEq.rfl

theorem formatParameters_eq : as.formatParameters = as'.formatParameters :=
  eq_of_beq <| h.filterMap_beq (k := .formatParameters) (by decide)
    Attribute.formatParameters?_eq_some (fun _ => rfl) fun hab => by cases hab <;> exact BEq.rfl

theorem feedback_eq : as.feedback = as'.feedback :=
  eq_of_beq <| h.filterMap_beq (k := .feedback) (by decide) Attribute.feedback?_eq_some
    (fun _ => rfl) fun hab => by cases hab <;> exact BEq.rfl

theorem sources_eq : as.sources = as'.sources :=
  eq_of_beq <| h.filterMap_beq (k := .source) (by decide) Attribute.source?_eq_some
    (fun _ => rfl) fun hab => by cases hab <;> exact BEq.rfl

theorem streamIds_eq : as.streamIds = as'.streamIds :=
  eq_of_beq <| h.filterMap_beq (k := .streamId) (by decide) Attribute.streamId?_eq_some
    (fun _ => rfl) fun hab => by cases hab <;> exact BEq.rfl

theorem rtpMaps_beq : (as.rtpMaps == as'.rtpMaps) = true :=
  h.filterMap_beq (k := .rtpMap) (by decide) Attribute.rtpMap?_eq_some (fun _ => rfl)
    fun hab => by cases hab <;> first | exact BEq.rfl | assumption

theorem sourceGroups_beq : (as.sourceGroups == as'.sourceGroups) = true :=
  h.filterMap_beq (k := .sourceGroup) (by decide) Attribute.sourceGroup?_eq_some (fun _ => rfl)
    fun hab => by cases hab <;> first | exact BEq.rfl | assumption

theorem candidates_beq : (as.candidates == as'.candidates) = true :=
  h.filterMap_beq (k := .candidate) (by decide) Attribute.candidate?_eq_some (fun _ => rfl)
    fun hab => by cases hab <;> first | exact BEq.rfl | assumption

theorem certificates_beq : (as.certificates == as'.certificates) = true :=
  h.filterMap_beq (k := .certificate) (by decide) Attribute.certificate?_eq_some (fun _ => rfl)
    fun hab => by cases hab <;> first | exact BEq.rfl | assumption

theorem iceOptions?_beq :
    (as.findSome? Attribute.iceOptions? == as'.findSome? Attribute.iceOptions?) = true :=
  h.findSome?_beq (k := .iceOptions) (by decide) Attribute.iceOptions?_eq_some (fun _ => rfl)
    fun hab => by cases hab <;> first | exact BEq.rfl | assumption

end Agrees

end AttributeList

/-! ### Payloads -/

namespace Payload

variable {as as' : AttributeList} (h : as.Agrees as')
include h

/-- Codecs are equal under the same payload types. -/
theorem codecs_rel : (codecs as).Rel (fun m m' => (m == m') = true) (codecs as') := by
  refine OrderedMap.Rel.ofList ?_
  rw [List.forall₂_map_left_iff, List.forall₂_map_right_iff]
  exact (forall₂_beq_iff.mp h.rtpMaps_beq).imp fun m m' hm => ⟨(RtpMap.beq_iff.mp hm).1, hm⟩

theorem parameterSets_eq : parameterSets as = parameterSets as' := by
  rw [parameterSets, parameterSets, h.formatParameters_eq]

theorem feedbackFor_eq (n : Int) : feedbackFor as n = feedbackFor as' n := by
  rw [feedbackFor, feedbackFor, h.feedback_eq]

/-- Whether a codec is for retransmission does not depend on its spelling. -/
theorem retransmissions_congr : retransmissions as = retransmissions as' := by
  rw [retransmissions, retransmissions, parameterSets_eq h]
  refine foldlM_congr (codecs_rel h) (fun found entry entry' he => ?_) _
  have hcodec := (RtpMap.beq_iff.mp he.2).2.1
  rw [addRetransmission, addRetransmission, he.1, BEq.congr_left hcodec]

theorem behind?_beq (rs : OrderedMap Int Int) (n : Int) :
    (behind? as rs n == behind? as' rs n) = true := by
  have hget := (codecs_rel h).get? n
  rw [behind?, behind?]
  generalize (codecs as).get? n = o, (codecs as').get? n = o' at hget
  cases hget with
  | none => rfl
  | @some m m' hm =>
    obtain ⟨-, hcodec, hrate, hchannels⟩ := RtpMap.beq_iff.mp hm
    have hmedia : isMedia m.codec = isMedia m'.codec := by
      simp only [isMedia, BEq.congr_left hcodec]
    simp only [hmedia, parameterSets_eq h, feedbackFor_eq h]
    split
    · change (_ == _ && (_ == _ && (_ == _ && (_ == _ && (_ == _ && (_ == _ && _ == _)))))) = true
      simp only [hcodec, hrate, hchannels, BEq.rfl, Bool.and_self]
    · rfl

theorem ofAttributes_rel (formats : List Text) :
    Outcome.Rel (fun ps ps' => (ps == ps') = true) (ofAttributes formats as)
      (ofAttributes formats as') := by
  rw [ofAttributes, ofAttributes, retransmissions_congr h]
  cases retransmissions as' with
  | error f => exact .error f
  | ok rs =>
    rw [ok_bind, ok_bind]
    cases formats.mapM number? with
    | error f => exact .error f
    | ok ns =>
      refine .ok (forall₂_beq_iff.mpr (List.rel_filterMap (R := Eq) ?_ (List.forall₂_refl ns)))
      rintro n _ rfl
      cases n with
      | none => exact .none
      | some n => exact optionRel_of_beq (behind?_beq h rs n)

end Payload

/-! ### Encodings -/

namespace Encoding

variable {as as' : AttributeList} (h : as.Agrees as')
include h

theorem sender?_congr : sender? as = sender? as' := by
  have hgroup : Option.Rel (fun g g' => (g == g') = true)
      (as.sourceGroups.find? fun g => g.meaning == .known .flow)
      (as'.sourceGroups.find? fun g => g.meaning == .known .flow) :=
    find?_rel (forall₂_beq_iff.mp h.sourceGroups_beq) fun g g' hg =>
      BEq.congr_left (SourceGroup.beq_iff.mp hg).1
  rw [sender?, sender?, h.sources_eq]
  generalize as.sourceGroups.find? _ = o, as'.sourceGroups.find? _ = o' at hgroup
  cases hgroup with
  | none => rfl
  | some hg => simp only [(SourceGroup.beq_iff.mp hg).2]

theorem ofAttributes_congr : ofAttributes as = ofAttributes as' := by
  rw [ofAttributes, ofAttributes, ofSources?, ofSources?, sender?_congr h, h.streamIds_eq]
  simp only [canonicalName?, h.sources_eq]

end Encoding

/-! ### Media -/

theorem Medium.beq_iff {m m' : Medium} : (m == m') = true ↔ (m.kind == m'.kind) = true
    ∧ m.port = m'.port ∧ (m.protocol == m'.protocol) = true ∧ m.formats = m'.formats
    ∧ m.ports = m'.ports := by
  change (m.kind == m'.kind && (m.port == m'.port && (m.protocol == m'.protocol
    && (m.formats == m'.formats && m.ports == m'.ports)))) = true ↔ _
  simp only [Bool.and_eq_true, beq_iff_eq]

theorem MediaDirection.ofAttributes_congr {as as' : AttributeList} (h : as.Agrees as') :
    ofAttributes as = ofAttributes as' := by
  have hflag : ∀ d : MediaDirection, as.hasFlag (.direction d) = as'.hasFlag (.direction d) :=
    fun d => h.hasKind_eq (by cases d <;> decide)
  simp only [ofAttributes, hflag]

theorem Bandwidths.amounts_beq {bs bs' : Bandwidths} (h : (bs == bs') = true) :
    (bs.amounts == bs'.amounts) = true :=
  OrderedMap.map_beq (fun _ _ _ _ _ hb => (Bool.and_eq_true_iff.mp hb).2) h

namespace RtpMedia

variable {m m' : MediaSection}

theorem extensionsOf_congr {as as' : AttributeList} (h : as.Agrees as') :
    extensionsOf as = extensionsOf as' := by
  rw [extensionsOf, extensionsOf, h.extensions_eq]

theorem ofSection_rel (h : m.Agrees m') :
    Outcome.Rel (fun r r' => (r == r') = true) (ofSection m) (ofSection m') := by
  obtain ⟨hmedium, hbandwidths, has⟩ := h
  obtain ⟨hkind, hport, hprotocol, hformats, -⟩ := Medium.beq_iff.mp hmedium
  have hflag : ∀ f : Attribute.Flag, .flag f ∈ Bundle.kinds →
      m.attributes.hasFlag f = m'.attributes.hasFlag f := fun f hf => has.hasKind_eq hf
  rw [ofSection, ofSection, has.labelled?_eq (by decide)]
  split
  · exact .error _
  · rw [hformats]
    refine (Payload.ofAttributes_rel has _).mapError.bind fun ps ps' hps => ?_
    rw [MediaDirection.ofAttributes_congr has]
    cases MediaDirection.ofAttributes m'.attributes with
    | error f => exact .error f
    | ok d =>
      refine .ok ?_
      change (_ == _ && (_ == _ && (_ == _ && (_ == _ && (_ == _ && (_ == _ && (_ == _
        && (_ == _ && (_ == _ && (_ == _ && (_ == _ && _ == _))))))))))) = true
      simp only [hkind, hport, hprotocol, Bandwidths.amounts_beq hbandwidths, hps,
        Encoding.ofAttributes_congr has, extensionsOf_congr has, hflag .rtcpMux (by decide),
        hflag .rtcpMuxOnly (by decide), hflag .rtcpReducedSize (by decide), BEq.rfl, Bool.and_self]

end RtpMedia

/-! ### Sessions -/

theorem Origin.beq_iff {o o' : Origin} : (o == o') = true ↔ o.user = o'.user ∧ o.id = o'.id
    ∧ o.version = o'.version ∧ o.network = o'.network ∧ o.family = o'.family
    ∧ o.address = o'.address := by
  change (o.user == o'.user && (o.id == o'.id && (o.version == o'.version
    && (o.network == o'.network && (o.family == o'.family && o.address == o'.address))))) = true ↔ _
  simp only [Bool.and_eq_true, beq_iff_eq]

namespace Bundle

variable {s s' : Session}

theorem iceOptions_beq {inner inner' outer outer' : AttributeList} (h : inner.Agrees inner')
    (h' : outer.Agrees outer') :
    (((inner.findSome? Attribute.iceOptions?).or (outer.findSome? Attribute.iceOptions?)).getD []
      == ((inner'.findSome? Attribute.iceOptions?).or
        (outer'.findSome? Attribute.iceOptions?)).getD []) = true := by
  have hinner := optionRel_of_beq h.iceOptions?_beq
  have houter := optionRel_of_beq h'.iceOptions?_beq
  generalize inner.findSome? _ = i, inner'.findSome? _ = i' at hinner
  generalize outer.findSome? _ = o, outer'.findSome? _ = o' at houter
  cases hinner with
  | some hos => exact hos
  | none =>
    cases houter with
    | some hos => exact hos
    | none => rfl

theorem certificates_beq {inner inner' outer outer' : AttributeList} (h : inner.Agrees inner')
    (h' : outer.Agrees outer') : (inner.certificates ++ outer.certificates
      == inner'.certificates ++ outer'.certificates) = true := by
  have hinner := forall₂_beq_iff.mp h.certificates_beq
  have houter := forall₂_beq_iff.mp h'.certificates_beq
  exact forall₂_beq_iff.mpr (List.rel_append hinner houter)

/-- Sessions that agree in what a bundle is made of mean equal bundles, or are
refused with the same error. -/
theorem ofSession_of_agrees (h : s.Agrees s') :
    Outcome.Rel (fun b b' => (b == b') = true) (ofSession s) (ofSession s') := by
  obtain ⟨horigin, houter, hmedia⟩ := h
  obtain ⟨-, hid, hversion, -⟩ := Origin.beq_iff.mp horigin
  unfold ofSession
  cases hs : s.media with
  | nil =>
    rw [hs, List.forall₂_nil_left_iff] at hmedia
    rw [hmedia]
    exact .error _
  | cons first rest =>
    rw [hs, List.forall₂_cons_left_iff] at hmedia
    obtain ⟨first', rest', hfirst, hrest, hs'⟩ := hmedia
    have hinner := hfirst.attributes
    have hinnerFlag : ∀ f : Attribute.Flag, .flag f ∈ kinds →
        first.attributes.hasFlag f = first'.attributes.hasFlag f := fun f hf => hinner.hasKind_eq hf
    have houterFlag : ∀ f : Attribute.Flag, .flag f ∈ kinds →
        s.attributes.hasFlag f = s'.attributes.hasFlag f := fun f hf => houter.hasKind_eq hf
    have hlabel : ∀ l : Attribute.Label, .label l ∈ kinds →
        (first.attributes.findSome? (Attribute.labelled? l)).or
            (s.attributes.findSome? (Attribute.labelled? l))
          = (first'.attributes.findSome? (Attribute.labelled? l)).or
            (s'.attributes.findSome? (Attribute.labelled? l)) := fun l hl => by
      rw [hinner.labelled?_eq hl, houter.labelled?_eq hl]
    simp only [hs', hlabel .iceUser (by decide), hlabel .icePassword (by decide)]
    split
    · exact .error _
    · exact .error _
    · refine (Outcome.Rel.mapM (.cons hfirst hrest) fun _ _ => RtpMedia.ofSection_rel).bind ?_
      intro ms ms' hms
      refine .ok ?_
      change (_ == _ && (_ == _ && (_ == _ && (_ == _ && (_ == _ && (_ == _ && (_ == _
        && (_ == _ && (_ == _ && (_ == _ && _ == _)))))))))) = true
      simp only [hid, hversion, hinner.setup?_eq, houter.setup?_eq, iceOptions_beq hinner houter,
        hinner.candidates_beq, certificates_beq hinner houter, forall₂_beq_iff.mpr hms,
        houterFlag .iceLite (by decide), houterFlag .extmapAllowMixed (by decide),
        hinnerFlag .extmapAllowMixed (by decide), BEq.rfl, Bool.and_self]

/-- A session with what a bundle is made of and little else. -/
def terse : Text :=
  "v=0\r\no=- 7 2 IN IP4 x\r\ns=-\r\nt=0 0\r\na=ice-ufrag:u\r\na=ice-pwd:p\r\n".toList
    ++ "m=audio 9 RTP/SAVPF 0 8\r\na=mid:a\r\na=rtpmap:0 PCMU/8000\r\n".toList
    ++ "a=rtpmap:8 PCMA/8000\r\na=fmtp:8 x=1\r\na=sendonly\r\n".toList

/-- The same with other lines, and with its attributes in another order. -/
def verbose : Text :=
  "v=0\r\no=- 7 2 IN IP4 x\r\ns=call\r\ni=about\r\nt=5 6\r\na=group:BUNDLE a\r\n".toList
    ++ "a=ICE-PWD:p\r\na=x:1\r\na=ice-ufrag:u\r\nm=audio 9 RTP/SAVPF 0 8\r\n".toList
    ++ "c=IN IP4 0.0.0.0\r\na=rtcp:9\r\na=sendonly\r\na=fmtp:8 x=1\r\n".toList
    ++ "a=rtpmap:0 pcmu/8000\r\na=msid:s\r\na=rtpmap:8 PCMA/8000\r\na=mid:a\r\n".toList

theorem ofSession_of_agrees_verbose : ∃ s s' : Session, Session.ofText terse = .ok s
    ∧ Session.ofText verbose = .ok s'
    ∧ Outcome.Rel (fun b b' => (b == b') = true) (ofSession s) (ofSession s') := by
  obtain ⟨s, hs, hagrees⟩ := exists_ok_of_any (x := Session.ofText terse) (P := fun s =>
    ((Session.ofText verbose).toOption.any fun s' => decide (s.Agrees s')) = true)
    (by decide +kernel)
  obtain ⟨s', hs', hagrees⟩ := exists_ok_of_any hagrees
  exact ⟨s, s', hs, hs', ofSession_of_agrees hagrees⟩

end Bundle

end OfferAnswer
