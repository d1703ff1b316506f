/-
OfferAnswer/Proofs/Bundle/Encoding.lean

Encodings read again from their own attributes.
-/
import Mathlib.Data.List.Flatten
import OfferAnswer.Bundle.Encoding
import OfferAnswer.Proofs.Attribute.Basic
import OfferAnswer.Proofs.Attribute.View

namespace OfferAnswer.Encoding

open Text Attribute Outcome

variable {e : Encoding} {es : List Encoding} {as : AttributeList}

/-! ### What reading assures -/

/-- What reading assures of an encoding. -/
def WellFormed : Encoding → Prop
  | stream id _ => IsWord InLine id
  | source cname s r => Over InLine cname ∧ Decimal.Fits (.upTo max32) s
    ∧ ∀ r' ∈ r, Decimal.Fits (.upTo max32) r'

/-- Streams, and a source at most, which comes last. -/
def Ordered (es : List Encoding) : Prop :=
  ∃ streams, ∃ source : Option Encoding, es = streams ++ source.toList
    ∧ (∀ e ∈ streams, e.isStream = true) ∧ ∀ e ∈ source, e.isStream = false

/-- Encodings as they are read. -/
structure Listed (es : List Encoding) : Prop where
  wellFormed : ∀ e ∈ es, e.WellFormed
  order : Ordered es

theorem wellFormed_of_ofStreamId? {s : StreamId} (hs : s.WellFormed InLine)
    (h : ofStreamId? s = some e) : e.WellFormed := by
  unfold ofStreamId? at h
  split at h
  · obtain rfl := Option.some.inj h
    exact hs.id
  · simp at h

theorem wellFormed_of_sender? (has : ∀ a ∈ as, a.WellFormed InLine) {s : Int} {r : Option Int}
    (h : sender? as = some (s, r)) : Decimal.Fits (.upTo max32) s
      ∧ ∀ r' ∈ r, Decimal.Fits (.upTo max32) r' := by
  unfold sender? at h
  split at h
  -- The first flow of sources says which of them sends, and which sends again.
  · next g hg =>
    have hgroup : g.WellFormed InLine :=
      has _ (AttributeList.mem_of_mem_filterMap sourceGroup?_eq_some (List.mem_of_find?_eq_some hg))
    obtain ⟨rfl, rfl⟩ := Prod.mk.inj (Option.some.inj h)
    refine ⟨hgroup.sources _ (List.head_mem g.ne_nil), fun r' hr' => hgroup.sources r' ?_⟩
    exact List.mem_of_mem_tail (List.mem_of_mem_head? hr')
  -- Without a flow it is the first source, and nothing is sent again.
  · obtain ⟨a, ha, h⟩ := Option.map_eq_some_iff.mp h
    obtain ⟨rfl, rfl⟩ := Prod.mk.inj h
    have hsource : a.WellFormed InLine :=
      has _ (AttributeList.mem_of_mem_filterMap source?_eq_some (List.mem_of_mem_head? ha))
    exact ⟨hsource.source, by simp⟩

theorem over_of_canonicalName? (has : ∀ a ∈ as, a.WellFormed InLine) {s : Int} {cname : Text}
    (h : canonicalName? as s = some cname) : Over InLine cname := by
  obtain ⟨a, ha, hvalue⟩ := Option.bind_eq_some_iff.mp h
  have hmem : a ∈ as.sources := List.mem_of_mem_filter (List.mem_of_getLast? ha)
  have hwf : a.WellFormed InLine :=
    has _ (AttributeList.mem_of_mem_filterMap source?_eq_some hmem)
  have hover := hwf.described_over
  rw [SourceAttribute.described, hvalue, withTail_some, over_append, over_cons] at hover
  exact hover.2.2

/-- The encodings of any attributes are in order, whether these were read or not. -/
theorem ordered_ofAttributes (as : AttributeList) : Ordered (ofAttributes as) := by
  refine ⟨_, ofSources? as, rfl, fun e he => ?_, fun e he => ?_⟩
  · obtain ⟨s, -, he⟩ := List.mem_filterMap.mp he
    unfold ofStreamId? at he
    split at he
    · obtain rfl := Option.some.inj he
      rfl
    · simp at he
  · obtain ⟨_, -, he⟩ := Option.bind_eq_some_iff.mp he
    obtain ⟨_, -, he⟩ := Option.bind_eq_some_iff.mp he
    obtain rfl := Option.some.inj he
    rfl

/-- What reading assures of the encodings of a medium. -/
theorem listed_ofAttributes (has : ∀ a ∈ as, a.WellFormed InLine) : Listed (ofAttributes as) := by
  refine ⟨fun e he => ?_, ordered_ofAttributes as⟩
  rcases List.mem_append.mp he with he | he
  · obtain ⟨s, hs, he⟩ := List.mem_filterMap.mp he
    have hwf := has _ (AttributeList.mem_of_mem_filterMap streamId?_eq_some hs)
    exact wellFormed_of_ofStreamId? hwf he
  · obtain ⟨⟨s, r⟩, hs, he⟩ := Option.bind_eq_some_iff.mp (Option.mem_toList.mp he)
    obtain ⟨cname, hcname, he⟩ := Option.bind_eq_some_iff.mp he
    obtain rfl := Option.some.inj he
    exact ⟨over_of_canonicalName? has hcname, wellFormed_of_sender? has hs⟩

/-! ### The other end -/

theorem Listed.answer (h : Listed es) : Listed (es.filterMap answer?) := by
  have hanswer : ∀ e ∈ es.filterMap answer?, e.WellFormed ∧ e.isStream = true := by
    intro e he
    obtain ⟨e', he', heq⟩ := List.mem_filterMap.mp he
    cases e' with
    | stream id d =>
      obtain rfl := Option.some.inj heq
      exact ⟨h.wellFormed (stream id d) he', rfl⟩
    | source => simp [answer?] at heq
  exact ⟨fun e he => (hanswer e he).1, _, none, (List.append_nil _).symm,
    fun e he => (hanswer e he).2, by simp⟩

/-! ### Reading again -/

theorem filterMap_flatMap_eq_self {α β : Type} {f : α → List β} {g : β → Option α} {xs : List α}
    (h : ∀ x ∈ xs, (f x).filterMap g = [x]) : (xs.flatMap f).filterMap g = xs := by
  rw [List.filterMap_flatMap, List.flatMap_congr h, List.flatMap_singleton']

theorem filterMap_flatMap_eq_nil {α β γ : Type} {f : α → List β} {g : β → Option γ} {xs : List α}
    (h : ∀ x ∈ xs, (f x).filterMap g = []) : (xs.flatMap f).filterMap g = [] := by
  rw [List.filterMap_flatMap]
  exact List.flatMap_eq_nil_iff.mpr h

/-- The lines that reading looks at are those of some encodings. -/
structure Lines (as : AttributeList) (es : List Encoding) : Prop where
  streamIds : as.streamIds = (es.flatMap ownAttributes).filterMap streamId?
  sources : as.sources = (es.flatMap ownAttributes).filterMap source?
  sourceGroups : as.sourceGroups = (es.flatMap ownAttributes).filterMap sourceGroup?

/-- The source of some lines is read from them. -/
theorem ofSources?_of_lines {source : Option Encoding} (hs : ∀ e ∈ source, e.isStream = false)
    (hsources : as.sources = (source.toList.flatMap ownAttributes).filterMap source?)
    (hgroups : as.sourceGroups = (source.toList.flatMap ownAttributes).filterMap sourceGroup?) :
    ofSources? as = source := by
  have hname : lower ['c', 'n', 'a', 'm', 'e'] = ['c', 'n', 'a', 'm', 'e'] := by decide
  rcases source with - | (⟨id, d⟩ | ⟨cname, s, - | r⟩)
  · -- no source, and no line of one
    have hsources : as.sources = [] := hsources
    have hgroups : as.sourceGroups = [] := hgroups
    simp [ofSources?, sender?, hsources, hgroups]
  · exact absurd (hs _ rfl) Bool.true_eq_false.mp
  · -- a source that is not sent again is found by its one line
    have hsources : as.sources = [{ source := s, name := "cname".toList, value := some cname }] :=
      hsources
    have hgroups : as.sourceGroups = [] := hgroups
    have hsender : sender? as = some (s, none) := by simp [sender?, hsources, hgroups]
    have hcname : canonicalName? as s = some cname := by
      simp [canonicalName?, hsources, hname]
    simp [ofSources?, hsender, hcname]
  · -- a source that is sent again in another is found by the group of the two
    have hsources : as.sources = [{ source := s, name := "cname".toList, value := some cname },
        { source := r, name := "cname".toList, value := some cname }] := hsources
    have hgroups : as.sourceGroups = [⟨.known .flow, [s, r], List.cons_ne_nil _ _⟩] := hgroups
    have hsender : sender? as = some (s, some r) := by simp [sender?, hgroups]
    have hcname : canonicalName? as s = some cname := by
      by_cases hr : r = s <;> simp [canonicalName?, hsources, hname, hr]
    simp [ofSources?, hsender, hcname]

/-- Encodings are read from their own lines. -/
theorem ofAttributes_of_lines (h : Ordered es) (hl : Lines as es) : ofAttributes as = es := by
  obtain ⟨streams, source, rfl, hstreams, hsource⟩ := h
  have hstream : ∀ e ∈ streams, ∃ id d, e = stream id d := by
    intro e he
    cases e with
    | stream id d => exact ⟨id, d, rfl⟩
    | source => exact absurd (hstreams _ he) (by simp [isStream])
  -- Only streams have lines that identify them, and only sources have the others.
  have hids : as.streamIds.filterMap ofStreamId? = streams := by
    have hself : (streams.flatMap ownAttributes).filterMap
        (fun a => (streamId? a).bind ofStreamId?) = streams := by
      refine filterMap_flatMap_eq_self fun e he => ?_
      obtain ⟨id, d, rfl⟩ := hstream e he
      rfl
    have hnil : (source.toList.flatMap ownAttributes).filterMap
        (fun a => (streamId? a).bind ofStreamId?) = [] := by
      rcases source with - | (⟨id, d⟩ | ⟨cname, s, - | r⟩)
      · rfl
      · exact absurd (hsource _ rfl) Bool.true_eq_false.mp
      · rfl
      · rfl
    rw [hl.streamIds, List.filterMap_filterMap, List.flatMap_append, List.filterMap_append, hself,
      hnil, List.append_nil]
  have hnone : ∀ {β : Type} {view : Attribute → Option β},
      (∀ id d, (ownAttributes (stream id d)).filterMap view = []) →
      ((streams ++ source.toList).flatMap ownAttributes).filterMap view
        = (source.toList.flatMap ownAttributes).filterMap view := by
    intro β view hview
    rw [List.flatMap_append, List.filterMap_append, filterMap_flatMap_eq_nil fun e he => ?_,
      List.nil_append]
    obtain ⟨id, d, rfl⟩ := hstream e he
    exact hview id d
  have hsources : ofSources? as = source := by
    refine ofSources?_of_lines hsource ?_ ?_
    · rw [hl.sources, hnone fun _ _ => rfl]
    · rw [hl.sourceGroups, hnone fun _ _ => rfl]
  rw [ofAttributes, hids, hsources]

/-! ### Written lines -/

theorem WellFormed.ownAttributes (h : e.WellFormed) :
    ∀ a ∈ e.ownAttributes, a.WellFormed InLine := by
  have hname : ∀ {s cname}, Over InLine cname → Decimal.Fits (.upTo max32) s →
      (nameAttribute s cname).WellFormed InLine := by
    intro s cname hcname hs
    refine ⟨hs, by simp, by simp [SourceAttribute.described], ?_⟩
    rw [SourceAttribute.described, withTail_some, over_append, over_cons]
    exact ⟨by simp [InLine], by simp [InLine], hcname⟩
  rcases e with ⟨id, d⟩ | ⟨cname, s, - | r⟩
  · exact List.forall_mem_singleton.mpr ⟨h, by simp⟩
  · exact List.forall_mem_singleton.mpr (hname h.1 h.2.1)
  · have hgroup : (Attribute.sourceGroup
        ⟨.known .flow, [s, r], List.cons_ne_nil _ _⟩).WellFormed InLine := {
      meaning_canonical := Token.isCanonical_known SourceGroupMeaning.flow
      meaning := (Vocabulary.isWord_spelling SourceGroupMeaning.flow).of_plain
      sources := by simpa using ⟨h.2.1, h.2.2 r rfl⟩ }
    simpa [Encoding.ownAttributes] using ⟨hname h.1 h.2.1, hname h.1 (h.2.2 r rfl), hgroup⟩

theorem isWord_of_mem_streamsIn (h : ∀ e ∈ es, e.WellFormed) {d : StreamDirection} {id : Text}
    (hid : id ∈ streamsIn d es) : IsWord InLine id := by
  obtain ⟨e, he, heq⟩ := List.mem_filterMap.mp hid
  have hwf := h e he
  split at heq
  · split at heq
    · exact Option.some.inj heq ▸ hwf
    · simp at heq
  · simp at heq

theorem isWord_listing {ids : List Text} (hne : ids ≠ []) (h : ∀ id ∈ ids, IsWord InLine id) :
    IsWord InLine (Simulcast.listing (ids.map ([·]))) := by
  have hlisting : Simulcast.listing (ids.map ([·])) = [';'].intercalate ids := by
    have hcomma : (fun id : Text => [','].intercalate [id]) = id := by
      funext id
      simp [List.intercalate]
    rw [Simulcast.listing, List.map_map]
    exact congrArg _ ((congrArg (ids.map ·) hcomma).trans (List.map_id ids))
  rw [hlisting]
  obtain ⟨id, hid⟩ := List.exists_mem_of_ne_nil ids hne
  have hblank : Over (· ≠ ' ') ([';'].intercalate ids) :=
    over_intercalate (by decide) fun id hid c hc he => (h id hid).blank_not_mem (he ▸ hc)
  exact {
    ne_nil := intercalate_ne_nil hid (h id hid).ne_nil
    blank_not_mem := fun hm => hblank ' ' hm rfl
    chars := over_intercalate (by simp [InLine]) fun id hid => (h id hid).chars }

/-- The directions that have streams are entered once each. -/
theorem entries_simulcastStreams (es : List Encoding) : (simulcastStreams es).entries
    = [StreamDirection.send, .recv].filterMap fun d =>
      let ids := streamsIn d es
      if ids.isEmpty then none else some (d, ids.map ([·])) := by
  refine OrderedMap.entries_ofList ?_
  by_cases hs : streamsIn .send es = [] <;> by_cases hr : streamsIn .recv es = [] <;>
    simp [hs, hr]

/-- The streams of a simulcast can be read when they have been written, though
an identifier may hold what separates two of them. -/
theorem legible_simulcastStreams (h : ∀ e ∈ es, e.WellFormed)
    (hne : (simulcastStreams es).isEmpty = false) :
    (Simulcast.mk (simulcastStreams es)).Legible InLine := by
  have hentries := entries_simulcastStreams es
  refine ⟨?_, fun e he => ?_⟩
  · have hempty : (simulcastStreams es).entries ≠ [] := fun hnil => by
      simp [OrderedMap.isEmpty, hnil] at hne
    have hlen := List.length_pos_iff.mpr hempty
    have hle : (simulcastStreams es).entries.length ≤ 2 := by
      rw [hentries]
      exact List.length_filterMap_le _ _
    -- One entry for each direction that has a stream.
    show (simulcastStreams es).entries.length = 1 ∨ (simulcastStreams es).entries.length = 2
    omega
  · have he : e ∈ (simulcastStreams es).entries := he
    rw [hentries] at he
    obtain ⟨d, -, heq⟩ := List.mem_filterMap.mp he
    simp only at heq
    split at heq
    · simp at heq
    · next hids =>
      obtain rfl := Option.some.inj heq
      exact isWord_listing (by simpa using hids) fun id hid => isWord_of_mem_streamsIn h hid

end OfferAnswer.Encoding
