/-
OfferAnswer/Proofs/Bundle/Payload.lean

Payloads taken apart and joined again.

Joining looks at three kinds of lines: codecs, format parameters and feedback.
Payloads that were joined once are joined again from their own lines, if they
have different payload types; that no payload type for retransmission serves
two of them, or is one of theirs, comes from the first time (`Joined`).
-/
import OfferAnswer.Bundle.Payload
import OfferAnswer.Proofs.Attribute.Basic
import OfferAnswer.Proofs.Attribute.View

namespace OfferAnswer

open Text Attribute Outcome

namespace Payload

variable {p q : Payload} {ps : List Payload} {as : AttributeList}

/-! ### The lines of a payload -/

/-- The codec of a payload. -/
def rtpMap (p : Payload) : RtpMap where
  payloadType := p.payloadType
  codec := p.codec
  clockRate := p.clockRate
  channels := p.channels

/-- The codec of the payload type for retransmission. -/
def repeatMap (p : Payload) (r : Int) : RtpMap where
  payloadType := r
  codec := .known .rtx
  clockRate := p.clockRate
  channels := p.channels

/-- The parameter of the payload type for retransmission. -/
def repeatParameters (p : Payload) (r : Int) : FormatParameters where
  payloadType := r
  parameters := "apt=".toList ++ Decimal.text p.payloadType

def rtpMaps (p : Payload) : List RtpMap := p.rtpMap :: (p.retransmission.map p.repeatMap).toList

def ownParameters (p : Payload) : List FormatParameters :=
  if p.parameters.isEmpty then []
  else [{ payloadType := p.payloadType, parameters := parameterText p.parameters }]

def parameterLines (p : Payload) : List FormatParameters :=
  p.ownParameters ++ (p.retransmission.map p.repeatParameters).toList

def feedbackLines (p : Payload) : List Feedback :=
  p.feedback.map fun f => { payloadType := some p.payloadType, id := f.1, parameter := f.2 }

/-- The payload types that a payload takes up. -/
def types (p : Payload) : List Int := p.payloadType :: p.retransmission.toList

theorem filterMap_rtpMap? (p : Payload) : p.attributes.filterMap rtpMap? = p.rtpMaps := by
  cases h : p.retransmission <;> by_cases he : p.parameters.isEmpty <;>
    simp [attributes, retransmissionAttributes, rtpMaps, rtpMap, repeatMap, rtpMap?, h, he,
      List.filterMap_cons, List.filterMap_map, Function.comp_def]

theorem filterMap_formatParameters? (p : Payload) :
    p.attributes.filterMap formatParameters? = p.parameterLines := by
  cases h : p.retransmission <;> by_cases he : p.parameters.isEmpty <;>
    simp [attributes, retransmissionAttributes, parameterLines, ownParameters, repeatParameters,
      formatParameters?, h, he, List.filterMap_cons, List.filterMap_map, Function.comp_def]

theorem filterMap_feedback? (p : Payload) :
    p.attributes.filterMap feedback? = p.feedbackLines := by
  cases h : p.retransmission <;> by_cases he : p.parameters.isEmpty <;>
    simp [attributes, retransmissionAttributes, feedbackLines, feedback?, h, he,
      List.filterMap_cons, List.filterMap_map, Function.comp_def]

theorem formats_eq (p : Payload) : p.formats = p.types.map Decimal.text := by
  cases h : p.retransmission <;> simp [formats, types, h]

/-! ### Parameters by name -/

/-- Parameters with names and values that can be told apart again. -/
structure ParametersWellFormed (ps : OrderedMap Text Text) : Prop where
  equals : ∀ e ∈ ps.entries, '=' ∉ e.1
  semicolon : ∀ e ∈ ps.entries, ';' ∉ e.1 ++ '=' :: e.2
  chars : ∀ e ∈ ps.entries, Over InLine e.1 ∧ Over InLine e.2

theorem parametersWellFormed_empty : ParametersWellFormed .empty := by
  constructor <;> simp

/-- Parameters are read by name from the text that they are written as. -/
theorem byName_parameterText {n : Int} {ps : OrderedMap Text Text}
    (h : ParametersWellFormed ps) :
    FormatParameters.byName { payloadType := n, parameters := parameterText ps } = ps := by
  -- No parameters are written as one empty part, which is not a parameter.
  rcases eq_or_ne ps.entries [] with he | he
  · have hempty : ps = .empty := OrderedMap.ext he
    rw [hempty]
    rfl
  have hsplit : (parameterText ps).splitOn ';' = ps.entries.map fun e => e.1 ++ '=' :: e.2 := by
    refine splitOn_eq_iff.mpr ⟨rfl, by simpa using he, ?_⟩
    exact List.forall_mem_map.mpr h.semicolon
  rw [FormatParameters.byName, hsplit, List.filterMap_map]
  refine (congrArg OrderedMap.ofList ?_).trans (OrderedMap.ofList_entries ps)
  refine (List.filterMap_congr fun e he => ?_).trans List.filterMap_some
  rw [Function.comp_apply, cut_append (h.equals e he)]

theorem parametersWellFormed_byName {f : FormatParameters} (h : Over InLine f.parameters) :
    ParametersWellFormed f.byName := by
  -- An entry is a part of the text, cut at its first equals sign.
  have hentry : ∀ e ∈ f.byName.entries, ∃ part ∈ f.parameters.splitOn ';',
      part = e.1 ++ '=' :: e.2 ∧ '=' ∉ e.1 := by
    intro e he
    obtain ⟨part, hpart, hcut⟩ := List.mem_filterMap.mp (OrderedMap.mem_of_mem_ofList he)
    split at hcut
    · next name value hc =>
      obtain rfl := Option.some.inj hcut
      exact ⟨part, hpart, cut_some hc⟩
    · simp at hcut
  refine ⟨fun e he => ?_, fun e he => ?_, fun e he => ?_⟩
  · obtain ⟨_, -, -, heq⟩ := hentry e he
    exact heq
  · obtain ⟨part, hpart, rfl, -⟩ := hentry e he
    exact not_mem_of_mem_splitOn hpart
  · obtain ⟨part, hpart, rfl, -⟩ := hentry e he
    have hover : Over InLine (e.1 ++ '=' :: e.2) := h.of_mem_splitOn hpart
    rw [over_append, over_cons] at hover
    exact ⟨hover.1, hover.2.2⟩

/-- The one parameter of a payload type for retransmission. -/
theorem get?_byName_repeatParameters (p : Payload) (r : Int) :
    (p.repeatParameters r).byName.get? "apt".toList = some (Decimal.text p.payloadType) := by
  have hentries : (OrderedMap.ofList [("apt".toList, Decimal.text p.payloadType)]).entries
      = [("apt".toList, Decimal.text p.payloadType)] :=
    OrderedMap.entries_ofList (List.pairwise_singleton _ _)
  have hsemicolon : ';' ∉ Decimal.text p.payloadType :=
    Decimal.not_mem_text (by decide) (by decide)
  have hwf : ParametersWellFormed (.ofList [("apt".toList, Decimal.text p.payloadType)]) := by
    refine ⟨?_, ?_, ?_⟩ <;> rw [hentries, List.forall_mem_singleton]
    · simp
    · simpa using hsemicolon
    · exact ⟨by simp [InLine], Decimal.over_text p.payloadType⟩
  have htext : parameterText (.ofList [("apt".toList, Decimal.text p.payloadType)])
      = "apt=".toList ++ Decimal.text p.payloadType := by
    rw [parameterText, hentries]
    simp [List.intercalate]
  rw [repeatParameters, ← htext, byName_parameterText hwf]
  exact OrderedMap.get?_ofList (List.pairwise_singleton _ _) List.mem_cons_self

/-! ### What joining assures -/

structure WellFormed (p : Payload) : Prop where
  rtpMap : p.rtpMap.WellFormed InLine
  isMedia : isMedia p.codec = true
  parameters : ParametersWellFormed p.parameters
  feedback : ∀ f ∈ p.feedbackLines, f.WellFormed InLine
  retransmission : ∀ r ∈ p.retransmission, Decimal.Fits (.upTo maxPayloadType) r

/-- The payloads of one medium: no payload type for retransmission is that of a
payload, or serves two of them. -/
structure Joined (ps : List Payload) : Prop where
  wellFormed : ∀ p ∈ ps, p.WellFormed
  apart : ∀ p ∈ ps, ∀ q ∈ ps, p.retransmission ≠ some q.payloadType
  single : ∀ p ∈ ps, ∀ q ∈ ps, ∀ r, p.retransmission = some r → q.retransmission = some r →
    p.payloadType = q.payloadType

/-! ### Written lines -/

theorem over_parameterText {ps : OrderedMap Text Text} (h : ParametersWellFormed ps) :
    Over InLine (parameterText ps) := by
  refine over_intercalate (by simp [InLine]) (List.forall_mem_map.mpr fun e he => ?_)
  rw [over_append, over_cons]
  exact ⟨(h.chars e he).1, by simp [InLine], (h.chars e he).2⟩

theorem parameterText_ne_nil {ps : OrderedMap Text Text} (h : ps.isEmpty = false) :
    parameterText ps ≠ [] := by
  obtain ⟨e, he⟩ := List.exists_mem_of_ne_nil ps.entries fun hnil => by
    simp [OrderedMap.isEmpty, hnil] at h
  exact intercalate_ne_nil (List.mem_map.mpr ⟨e, he, rfl⟩) (by simp)

theorem WellFormed.repeatMap (h : p.WellFormed) {r : Int} (hr : r ∈ p.retransmission) :
    (p.repeatMap r).WellFormed InLine where
  payloadType := h.retransmission r hr
  codec_canonical := Token.isCanonical_known Codec.rtx
  codec_ne_nil := (Vocabulary.isWord_spelling Codec.rtx).ne_nil
  codec_slash := Codec.slash_not_mem_spelling Codec.rtx
  codec_over := (Vocabulary.isWord_spelling Codec.rtx).chars.of_plain
  clockRate := h.rtpMap.clockRate
  channels := h.rtpMap.channels

theorem WellFormed.repeatParameters (h : p.WellFormed) {r : Int} (hr : r ∈ p.retransmission) :
    (p.repeatParameters r).WellFormed InLine where
  payloadType := h.retransmission r hr
  parameters_ne_nil := by simp [Payload.repeatParameters]
  parameters_over := by
    rw [Payload.repeatParameters, over_append]
    exact ⟨by simp [InLine], Decimal.over_text p.payloadType⟩

/-- The attributes of a well-formed payload are well-formed. -/
theorem WellFormed.attributes (h : p.WellFormed) :
    ∀ a ∈ p.attributes, a.WellFormed InLine := by
  simp only [Payload.attributes, List.forall_mem_append, List.forall_mem_cons]
  refine ⟨⟨⟨h.rtpMap, ?_⟩, ?_⟩, ?_⟩
  · exact List.forall_mem_map.mpr fun f hf => h.feedback _ (List.mem_map_of_mem hf)
  · -- without parameters there is no line for them
    split
    · simp
    · next he =>
      refine List.forall_mem_singleton.mpr ⟨h.rtpMap.payloadType, ?_, ?_⟩
      · exact parameterText_ne_nil (by simpa using he)
      · exact over_parameterText h.parameters
  · cases hr : p.retransmission with
    | none => simp
    | some r =>
      show ∀ a ∈ [Attribute.rtpMap (p.repeatMap r), .formatParameters (p.repeatParameters r)], _
      simpa using ⟨h.repeatMap hr, h.repeatParameters hr⟩

/-! ### Joining once -/

theorem get?_codecs {t : Int} {m : RtpMap} (h : (codecs as).get? t = some m) :
    .rtpMap m ∈ as ∧ m.payloadType = t := by
  have hm := OrderedMap.mem_of_mem_ofList (OrderedMap.get?_eq_some_iff.mp h)
  obtain ⟨m', hm', heq⟩ := List.mem_map.mp hm
  obtain ⟨rfl, rfl⟩ := Prod.mk.inj heq
  exact ⟨AttributeList.mem_of_mem_filterMap rtpMap?_eq_some hm', rfl⟩

theorem get?_parameterSets {t : Int} {ps : OrderedMap Text Text}
    (h : (parameterSets as).get? t = some ps) : ∃ f, .formatParameters f ∈ as ∧ f.byName = ps := by
  have hm := OrderedMap.mem_of_mem_ofList (OrderedMap.get?_eq_some_iff.mp h)
  obtain ⟨f, hf, heq⟩ := List.mem_map.mp hm
  obtain ⟨-, rfl⟩ := Prod.mk.inj heq
  exact ⟨f, AttributeList.mem_of_mem_filterMap formatParameters?_eq_some hf, rfl⟩

/-- The payload behind a payload type. -/
theorem behind?_eq_some {rs : OrderedMap Int Int} {t : Int} (h : behind? as rs t = some p) :
    (codecs as).get? t = some p.rtpMap ∧ isMedia p.codec = true
      ∧ p.parameters = ((parameterSets as).get? t).getD .empty
      ∧ p.feedback = feedbackFor as t ∧ p.retransmission = rs.get? t ∧ p.payloadType = t := by
  unfold behind? at h
  split at h
  · next m hm =>
    split at h
    · next hmedia =>
      obtain rfl := Option.some.inj h
      obtain ⟨-, rfl⟩ := get?_codecs hm
      exact ⟨hm, hmedia, rfl, rfl, rfl, rfl⟩
    · simp at h
  · simp at h

theorem wellFormed_of_behind? (has : ∀ a ∈ as, a.WellFormed InLine) {rs : OrderedMap Int Int}
    (hrs : ∀ t r, rs.get? t = some r → Decimal.Fits (.upTo maxPayloadType) r) {t : Int}
    (h : behind? as rs t = some p) : p.WellFormed := by
  obtain ⟨hcodec, hmedia, hparameters, hfeedback, hr, rfl⟩ := behind?_eq_some h
  have hmap : p.rtpMap.WellFormed InLine := has _ (get?_codecs hcodec).1
  refine ⟨hmap, hmedia, ?_, ?_, fun r hr' => hrs _ r (hr ▸ hr')⟩
  · rw [hparameters]
    cases hps : (parameterSets as).get? p.payloadType with
    | none => exact parametersWellFormed_empty
    | some ps =>
      obtain ⟨f, hf, rfl⟩ := get?_parameterSets hps
      exact parametersWellFormed_byName (has _ hf).parameters_over
  · rw [feedbackLines, hfeedback, List.forall_mem_map]
    intro f hf
    obtain ⟨f', hf', rfl⟩ := List.mem_map.mp hf
    obtain ⟨hmem, htype⟩ := List.mem_filter.mp hf'
    rw [← eq_of_beq htype]
    exact has _ (AttributeList.mem_of_mem_filterMap feedback?_eq_some hmem)

/-! ### Retransmission -/

/-- A payload type is for retransmission, and its one parameter says of
what. -/
def Repeats (as : AttributeList) (r t : Int) : Prop :=
  (∃ m, (codecs as).get? r = some m ∧ (m.codec == .known .rtx) = true)
    ∧ ∃ apt, ((parameterSets as).get? r).bind (·.get? "apt".toList) = some apt
      ∧ number? apt = .ok (some t)

theorem Repeats.inj {r t t' : Int} (h : Repeats as r t) (h' : Repeats as r t') : t = t' := by
  obtain ⟨-, apt, hapt, ht⟩ := h
  obtain ⟨-, apt', hapt', ht'⟩ := h'
  obtain rfl := Option.some.inj (hapt.symm.trans hapt')
  exact Option.some.inj (Except.ok.inj (ht.symm.trans ht'))

/-- One more codec enters at most what it repeats. -/
theorem repeats_of_addRetransmission {found found' : OrderedMap Int Int} {entry : Int × RtpMap}
    (hentry : entry ∈ (codecs as).entries) (hfound : ∀ e ∈ found.entries, Repeats as e.2 e.1)
    (h : addRetransmission (parameterSets as) found entry = .ok found') :
    ∀ e ∈ found'.entries, Repeats as e.2 e.1 := by
  unfold addRetransmission at h
  split at h
  · next hrtx =>
    split at h
    · next apt hapt =>
      obtain ⟨n, hn, h⟩ := bind_eq_ok.mp h
      -- What is repeated may not be a payload type, and is left out then.
      cases n with
      | none =>
        obtain rfl := pure_eq_ok.mp h
        exact hfound
      | some t =>
        obtain rfl := pure_eq_ok.mp h
        have hnew : Repeats as entry.1 t :=
          ⟨⟨entry.2, OrderedMap.get?_eq_some_iff.mpr hentry, hrtx⟩, apt, hapt, hn⟩
        refine OrderedMap.forall_insert (P := fun t r => Repeats as r t) hfound hnew ?_
        exact fun j _ hj _ => eq_of_beq hj ▸ hnew
    · obtain rfl := pure_eq_ok.mp h
      exact hfound
  · obtain rfl := pure_eq_ok.mp h
    exact hfound

theorem repeats_of_retransmissions {rs : OrderedMap Int Int} (h : retransmissions as = .ok rs)
    {r t : Int} (hr : rs.get? t = some r) : Repeats as r t := by
  have hall : ∀ e ∈ rs.entries, Repeats as e.2 e.1 :=
    foldlM_induction (P := fun rs => ∀ e ∈ rs.entries, Repeats as e.2 e.1) h (by simp)
      fun _ _ _ hentry hfound hstep => repeats_of_addRetransmission hentry hfound hstep
  exact hall (t, r) (OrderedMap.get?_eq_some_iff.mp hr)

/-- What joining assures of the payloads of a medium. -/
theorem joined_of_ofAttributes (has : ∀ a ∈ as, a.WellFormed InLine) {formats : List Text}
    (h : ofAttributes formats as = .ok ps) : Joined ps := by
  obtain ⟨rs, hrs, h⟩ := bind_eq_ok.mp h
  obtain ⟨ns, -, h⟩ := bind_eq_ok.mp h
  obtain rfl := pure_eq_ok.mp h
  have hbehind : ∀ p ∈ ns.filterMap fun n => n.bind (behind? as rs),
      behind? as rs p.payloadType = some p := by
    intro p hp
    obtain ⟨n, -, hp⟩ := List.mem_filterMap.mp hp
    obtain ⟨t, -, hp⟩ := Option.bind_eq_some_iff.mp hp
    obtain ⟨-, -, -, -, -, rfl⟩ := behind?_eq_some hp
    exact hp
  have hrepeats : ∀ t r, rs.get? t = some r → Repeats as r t := fun t r hr =>
    repeats_of_retransmissions hrs hr
  refine ⟨fun p hp => ?_, fun p hp q hq hr => ?_, fun p hp q hq r hpr hqr => ?_⟩
  · refine wellFormed_of_behind? has (fun t r hr => ?_) (hbehind p hp)
    obtain ⟨⟨m, hm, -⟩, -⟩ := hrepeats t r hr
    obtain ⟨hmem, rfl⟩ := get?_codecs hm
    exact (has _ hmem).payloadType
  · -- the codec of what is repeated is media, and that of what repeats is not
    obtain ⟨-, -, -, -, hpr, -⟩ := behind?_eq_some (hbehind p hp)
    obtain ⟨hcodec, hmedia, -⟩ := behind?_eq_some (hbehind q hq)
    obtain ⟨⟨m, hm, hrtx⟩, -⟩ := hrepeats _ _ (hpr ▸ hr)
    obtain rfl := Option.some.inj (hcodec.symm.trans hm)
    have hrtx : (q.codec == .known .rtx) = true := hrtx
    simp [isMedia, hrtx] at hmedia
  · -- what repeats names the one payload type that it repeats
    obtain ⟨-, -, -, -, hp', -⟩ := behind?_eq_some (hbehind p hp)
    obtain ⟨-, -, -, -, hq', -⟩ := behind?_eq_some (hbehind q hq)
    exact (hrepeats _ r (hp' ▸ hpr)).inj (hrepeats _ r (hq' ▸ hqr))

end Payload

end OfferAnswer
