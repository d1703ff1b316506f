/-
OfferAnswer/Proofs/Bundle/Joining.lean

Payloads joined again from their own lines.

The payload types that the lines speak of are all different, so every mapping
that joining builds has just the lines as its entries, and gives back for each
payload what the payload was taken apart into.
-/
import Mathlib.Data.List.Flatten
import Mathlib.Data.List.Nodup
import OfferAnswer.Proofs.Bundle.Payload

namespace OfferAnswer.Payload

open Text Attribute Outcome

variable {p q : Payload} {ps : List Payload} {as : AttributeList}

/-- The lines that joining looks at are those of some payloads. -/
structure Lines (as : AttributeList) (ps : List Payload) : Prop where
  rtpMaps : as.rtpMaps = ps.flatMap rtpMaps
  parameters : as.formatParameters = ps.flatMap parameterLines
  feedback : as.feedback = ps.flatMap feedbackLines

/-! ### Payload types -/

theorem nodup_types (h : Joined ps) (hd : (ps.map payloadType).Nodup) :
    (ps.flatMap types).Nodup := by
  rw [List.nodup_flatMap]
  refine ⟨fun p hp => ?_, (List.pairwise_map.mp hd).imp_of_mem fun {p q} hp hq hne => ?_⟩
  · rw [types, List.nodup_cons]
    refine ⟨fun hm => h.apart p hp p hp (Option.mem_toList.mp hm), ?_⟩
    cases p.retransmission <;> simp
  · intro t htp htq
    -- Each of the two payloads may have the type itself or for retransmission.
    rcases List.mem_cons.mp htp with rfl | htp <;> rcases List.mem_cons.mp htq with htq | htq
    · exact hne htq
    · exact h.apart q hq p hp (Option.mem_toList.mp htq)
    · exact h.apart p hp q hq (htq ▸ Option.mem_toList.mp htp)
    · exact hne (h.single p hp q hq t (Option.mem_toList.mp htp) (Option.mem_toList.mp htq))

theorem map_rtpMaps (p : Payload) : p.rtpMaps.map RtpMap.payloadType = p.types := by
  cases h : p.retransmission <;> simp [rtpMaps, rtpMap, repeatMap, types, h]

theorem map_parameterLines_sublist (p : Payload) :
    (p.parameterLines.map FormatParameters.payloadType).Sublist p.types := by
  cases h : p.retransmission <;> by_cases he : p.parameters.isEmpty <;>
    simp [parameterLines, ownParameters, repeatParameters, types, h, he]

/-- The payload types for retransmission by what they repeat. -/
def repeated (ps : List Payload) : List (Int × Int) :=
  ps.filterMap fun p => p.retransmission.map fun r => (p.payloadType, r)

theorem map_repeated_sublist (ps : List Payload) :
    ((repeated ps).map Prod.fst).Sublist (ps.map payloadType) := by
  induction ps with
  | nil => exact .slnil
  | cons p ps ih =>
    cases hr : p.retransmission with
    | none => simpa [repeated, hr] using ih.cons p.payloadType
    | some r => simpa [repeated, hr] using ih.cons_cons p.payloadType

theorem number?_text {n : Int} (hn : Decimal.Fits (.upTo maxPayloadType) n) :
    number? (Decimal.text n) = .ok (some n) := by
  have hnonneg : ¬ n < 0 := Int.not_lt.mpr (hn.least 0 rfl)
  have hdigits : Decimal.isDigits (Decimal.text n) = true := by
    rw [Decimal.text, if_neg hnonneg]
    exact Decimal.isDigits_toDigits n.natAbs
  rw [number?, if_pos hdigits, Decimal.ofText?_text hn.writable, map_ok]

theorem Joined.fits_types (h : Joined ps) :
    ∀ t ∈ ps.flatMap types, Decimal.Fits (.upTo maxPayloadType) t := by
  intro t ht
  obtain ⟨p, hp, ht⟩ := List.mem_flatMap.mp ht
  have hwf := h.wellFormed p hp
  rcases List.mem_cons.mp ht with rfl | ht
  · exact hwf.rtpMap.payloadType
  · exact hwf.retransmission t (Option.mem_toList.mp ht)

/-- The formats of payloads are the payload types that they take up. -/
theorem Joined.mapM_number?_formats (h : Joined ps) :
    (ps.flatMap formats).mapM number? = .ok ((ps.flatMap types).map some) := by
  have hformats : ps.flatMap formats = (ps.flatMap types).map Decimal.text := by
    rw [List.map_flatMap]
    exact List.flatMap_congr fun p _ => p.formats_eq
  rw [hformats, mapM_eq_ok, List.forall₂_map_left_iff, List.forall₂_map_right_iff,
    List.forall₂_same]
  exact fun t ht => number?_text (h.fits_types t ht)

/-- Of all that have a key of their own, one is picked by its key. -/
theorem flatMap_ite_of_nodup {β : Type} {f : Payload → List β} (hd : (ps.map payloadType).Nodup)
    (hp : p ∈ ps) :
    (ps.flatMap fun q => if q.payloadType = p.payloadType then f q else []) = f p := by
  obtain ⟨before, after, rfl⟩ := List.append_of_mem hp
  have hnil : ∀ qs : List Payload, (∀ q ∈ qs, q.payloadType ≠ p.payloadType) →
      (qs.flatMap fun q => if q.payloadType = p.payloadType then f q else []) = [] := fun qs hqs =>
    List.flatMap_eq_nil_iff.mpr fun q hq => if_neg (hqs q hq)
  rw [List.map_append, List.map_cons, List.nodup_middle, List.nodup_cons, List.mem_append,
    not_or] at hd
  have hbefore : ∀ q ∈ before, q.payloadType ≠ p.payloadType := fun q hq he =>
    hd.1.1 (he ▸ List.mem_map_of_mem hq)
  have hafter : ∀ q ∈ after, q.payloadType ≠ p.payloadType := fun q hq he =>
    hd.1.2 (he ▸ List.mem_map_of_mem hq)
  rw [List.flatMap_append, List.flatMap_cons, hnil before hbefore, hnil after hafter, if_pos rfl,
    List.nil_append, List.append_nil]

theorem get?_repeated (hd : (ps.map payloadType).Nodup) (hp : p ∈ ps) :
    (OrderedMap.ofList (repeated ps)).get? p.payloadType = p.retransmission := by
  have hdistinct := OrderedMap.distinct_of_nodup (hd.sublist (map_repeated_sublist ps))
  cases hr : p.retransmission with
  | some r =>
    refine OrderedMap.get?_ofList hdistinct (List.mem_filterMap.mpr ⟨p, hp, ?_⟩)
    rw [hr]
    rfl
  | none =>
    -- An entry under this type would be of a payload of the same type, which is `p`.
    refine OrderedMap.get?_eq_none fun e he => ?_
    rw [OrderedMap.entries_ofList hdistinct] at he
    obtain ⟨q, hq, he⟩ := List.mem_filterMap.mp he
    obtain ⟨r, hqr, rfl⟩ := Option.map_eq_some_iff.mp he
    rw [beq_eq_false_iff_ne]
    intro htype
    obtain rfl := List.inj_on_of_nodup_map hd hq hp htype
    simp [hr] at hqr

theorem feedbackFor_payloadType (hd : (ps.map payloadType).Nodup) (hl : Lines as ps) (hp : p ∈ ps) :
    feedbackFor as p.payloadType = p.feedback := by
  have hown : ∀ q ∈ ps, (q.feedbackLines.filter fun f => f.payloadType == some p.payloadType)
      = if q.payloadType = p.payloadType then q.feedbackLines else [] := by
    intro q _
    have htype : ∀ f ∈ q.feedbackLines, f.payloadType = some q.payloadType :=
      List.forall_mem_map.mpr fun _ _ => rfl
    split
    · next heq => exact List.filter_eq_self.mpr fun f hf => by simp [htype f hf, heq]
    · next hne => exact List.filter_eq_nil_iff.mpr fun f hf => by simp [htype f hf, hne]
  rw [feedbackFor, hl.feedback, List.filter_flatMap, List.flatMap_congr hown,
    flatMap_ite_of_nodup hd hp, feedbackLines, List.map_map]
  exact List.map_id p.feedback

/-! ### Mappings -/

section

variable (h : Joined ps) (hd : (ps.map payloadType).Nodup) (hl : Lines as ps)

include h hd hl

theorem entries_codecs :
    (codecs as).entries = (ps.flatMap rtpMaps).map fun m => (m.payloadType, m) := by
  rw [codecs, hl.rtpMaps]
  refine OrderedMap.entries_ofList (OrderedMap.distinct_of_nodup ?_)
  have hkeys : ((ps.flatMap rtpMaps).map fun m => (m.payloadType, m)).map Prod.fst
      = ps.flatMap types := by
    rw [List.map_map, List.map_flatMap]
    exact List.flatMap_congr fun p _ => p.map_rtpMaps
  rw [hkeys]
  exact nodup_types h hd

theorem entries_parameterSets : (parameterSets as).entries
    = (ps.flatMap parameterLines).map fun f => (f.payloadType, f.byName) := by
  rw [parameterSets, hl.parameters]
  refine OrderedMap.entries_ofList (OrderedMap.distinct_of_nodup ?_)
  have hkeys : ((ps.flatMap parameterLines).map fun f => (f.payloadType, f.byName)).map Prod.fst
      = ps.flatMap fun p => p.parameterLines.map FormatParameters.payloadType := by
    rw [List.map_map, List.map_flatMap]
    rfl
  rw [hkeys]
  exact (nodup_types h hd).sublist
    (List.Sublist.flatMap_right ps fun p _ => p.map_parameterLines_sublist)

theorem get?_codecs_of_mem (hp : p ∈ ps) {m : RtpMap} (hm : m ∈ p.rtpMaps) :
    (codecs as).get? m.payloadType = some m := by
  rw [OrderedMap.get?_eq_some_iff, entries_codecs h hd hl]
  exact List.mem_map.mpr ⟨m, List.mem_flatMap.mpr ⟨p, hp, hm⟩, rfl⟩

theorem get?_parameterSets_of_mem (hp : p ∈ ps) {f : FormatParameters}
    (hf : f ∈ p.parameterLines) : (parameterSets as).get? f.payloadType = some f.byName := by
  rw [OrderedMap.get?_eq_some_iff, entries_parameterSets h hd hl]
  exact List.mem_map.mpr ⟨f, List.mem_flatMap.mpr ⟨p, hp, hf⟩, rfl⟩

theorem get?_parameterSets_of_isEmpty (hp : p ∈ ps) (he : p.parameters.isEmpty = true) :
    (parameterSets as).get? p.payloadType = none := by
  refine OrderedMap.get?_eq_none fun e hm => ?_
  rw [entries_parameterSets h hd hl] at hm
  obtain ⟨f, hf, rfl⟩ := List.mem_map.mp hm
  obtain ⟨q, hq, hf⟩ := List.mem_flatMap.mp hf
  rw [beq_eq_false_iff_ne]
  intro htype
  rcases List.mem_append.mp hf with hf | hf
  · -- a line of its own is written by this payload alone, and it has none
    unfold ownParameters at hf
    split at hf
    · exact List.not_mem_nil hf
    · next hne =>
      obtain rfl := List.mem_singleton.mp hf
      obtain rfl := List.inj_on_of_nodup_map hd hq hp htype
      exact hne he
  · -- a line for retransmission has a payload type that no payload has
    obtain ⟨r, hr, rfl⟩ := Option.map_eq_some_iff.mp (Option.mem_toList.mp hf)
    have htype : r = p.payloadType := htype
    exact h.apart q hq p hp (htype ▸ hr)

/-- The parameters of a payload; without any, there is no line for it. -/
theorem getD_parameterSets (hp : p ∈ ps) :
    ((parameterSets as).get? p.payloadType).getD .empty = p.parameters := by
  by_cases he : p.parameters.isEmpty = true
  · have hempty : p.parameters = .empty := OrderedMap.ext (List.isEmpty_iff.mp he)
    rw [get?_parameterSets_of_isEmpty h hd hl hp he, hempty]
    rfl
  · have hline : ({ payloadType := p.payloadType, parameters := parameterText p.parameters }
        : FormatParameters) ∈ p.parameterLines := by
      simp [parameterLines, ownParameters, he]
    rw [get?_parameterSets_of_mem h hd hl hp hline,
      byName_parameterText (h.wellFormed p hp).parameters]
    rfl

/-! ### Retransmission -/

omit hd hl in
/-- The codec of a payload itself is not for retransmission. -/
theorem addRetransmission_rtpMap (hp : p ∈ ps) (found : OrderedMap Int Int) :
    addRetransmission (parameterSets as) found (p.payloadType, p.rtpMap) = .ok found := by
  have hmedia := (h.wellFormed p hp).isMedia
  simp only [isMedia, List.any_cons, Bool.not_or, Bool.and_eq_true, Bool.not_eq_true'] at hmedia
  have hrtx : (p.rtpMap.codec == .known .rtx) = false := hmedia.1
  simp [addRetransmission, hrtx]

theorem addRetransmission_repeatMap (hp : p ∈ ps) {r : Int} (hr : p.retransmission = some r)
    (found : OrderedMap Int Int) :
    addRetransmission (parameterSets as) found (r, p.repeatMap r)
      = .ok (found.insert p.payloadType r) := by
  have hrtx : ((p.repeatMap r).codec == .known .rtx) = true := rfl
  have hparameters : (parameterSets as).get? r = some (p.repeatParameters r).byName :=
    get?_parameterSets_of_mem h hd hl hp (f := p.repeatParameters r) (by simp [parameterLines, hr])
  have hnumber := number?_text (h.wellFormed p hp).rtpMap.payloadType
  rw [addRetransmission, if_pos hrtx, hparameters, Option.bind_some, get?_byName_repeatParameters]
  exact bind_eq_ok.mpr ⟨_, hnumber, rfl⟩

/-- Going through the codecs of some of the payloads. -/
theorem foldlM_addRetransmission {qs : List Payload} (hqs : qs ⊆ ps)
    (found : OrderedMap Int Int) :
    ((qs.flatMap rtpMaps).map fun m => (m.payloadType, m)).foldlM
        (addRetransmission (parameterSets as)) found
      = .ok ((repeated qs).foldl (fun found e => found.insert e.1 e.2) found) := by
  induction qs generalizing found with
  | nil => rfl
  | cons q qs ih =>
    obtain ⟨hq, hqs⟩ := List.cons_subset.mp hqs
    rw [List.flatMap_cons, List.map_append, List.foldlM_append, rtpMaps, List.map_cons,
      List.foldlM_cons, show q.rtpMap.payloadType = q.payloadType from rfl,
      addRetransmission_rtpMap h hq, ok_bind]
    cases hr : q.retransmission with
    | none =>
      -- Its codec alone: nothing is entered.
      have hrepeated : repeated (q :: qs) = repeated qs := by simp [repeated, hr]
      rw [hrepeated]
      exact ih hqs found
    | some r =>
      -- Its codec, then the one that sends it again, which enters it.
      have hrepeated : repeated (q :: qs) = (q.payloadType, r) :: repeated qs := by
        simp [repeated, hr]
      rw [hrepeated, Option.map_some, Option.toList_some, List.map_singleton,
        List.foldlM_cons, show (q.repeatMap r).payloadType = r from rfl,
        addRetransmission_repeatMap h hd hl hq hr]
      exact ih hqs _

theorem retransmissions_eq : retransmissions as = .ok (.ofList (repeated ps)) := by
  rw [retransmissions, entries_codecs h hd hl]
  exact foldlM_addRetransmission h hd hl (List.Subset.refl ps) .empty

/-! ### Payloads -/

theorem behind?_payloadType (hp : p ∈ ps) :
    behind? as (.ofList (repeated ps)) p.payloadType = some p := by
  have hcodec : (codecs as).get? p.payloadType = some p.rtpMap :=
    get?_codecs_of_mem h hd hl hp (m := p.rtpMap) List.mem_cons_self
  have hmedia : isMedia p.rtpMap.codec = true := (h.wellFormed p hp).isMedia
  rw [behind?, hcodec]
  simp only [hmedia, if_true, getD_parameterSets h hd hl hp, feedbackFor_payloadType hd hl hp,
    get?_repeated hd hp]
  rfl

theorem behind?_retransmission (hp : p ∈ ps) {r : Int} (hr : p.retransmission = some r)
    (rs : OrderedMap Int Int) : behind? as rs r = none := by
  have hcodec : (codecs as).get? r = some (p.repeatMap r) :=
    get?_codecs_of_mem h hd hl hp (m := p.repeatMap r) (by simp [rtpMaps, hr])
  rw [behind?, hcodec]
  rfl

/-- Payloads that were joined are joined again from their own lines. -/
theorem ofAttributes_formats : ofAttributes (ps.flatMap formats) as = .ok ps := by
  -- Of the types of a payload, only its own has a payload behind it.
  have hpayloads : ∀ p ∈ ps, p.types.filterMap (behind? as (.ofList (repeated ps))) = [p] := by
    intro p hp
    rw [types, List.filterMap_cons, behind?_payloadType h hd hl hp]
    cases hr : p.retransmission with
    | none => rfl
    | some r => simp [behind?_retransmission h hd hl hp hr]
  have hall : ((ps.flatMap types).map some).filterMap
      (fun n => n.bind (behind? as (.ofList (repeated ps)))) = ps := by
    rw [List.filterMap_map, Function.comp_def]
    simp only [Option.bind_some]
    rw [List.filterMap_flatMap, List.flatMap_congr hpayloads, List.flatMap_singleton']
  rw [ofAttributes, retransmissions_eq h hd hl, ok_bind, h.mapM_number?_formats, ok_bind, hall]
  rfl

end

end OfferAnswer.Payload
