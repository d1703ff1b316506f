/-
OfferAnswer/Proofs/Bundle/Table.lean

The table of payloads, told from the lines alone.

Joining goes through mappings: of the codecs, of the parameters, and of the
payload types for retransmission.  `IsJoinedFrom` says what a payload is
without them: of several codecs or parameters of one payload type the last
counts, feedback is collected, and of several payload types that send a payload
again the one whose first codec comes last is taken.
`ofAttributes_isJoinedFrom` says that joining makes just these payloads.
-/
import OfferAnswer.Proofs.Bundle.Faults
import OfferAnswer.Proofs.Bundle.Payload

namespace OfferAnswer

open Outcome

/-! ### Lists -/

/-- In a rising list the last member is the one that no other exceeds. -/
theorem getLast?_eq_some_iff_of_pairwise {α : Type} {place : α → Nat} {xs : List α} {x : α}
    (h : xs.Pairwise fun a b => place a < place b) :
    xs.getLast? = some x ↔ x ∈ xs ∧ ∀ y ∈ xs, place y ≤ place x := by
  rcases List.eq_nil_or_concat' xs with rfl | ⟨ys, z, rfl⟩
  · simp
  obtain ⟨-, -, hall⟩ := List.pairwise_append.mp h
  have hlt : ∀ y ∈ ys, place y < place z := fun y hy => hall y hy z (List.mem_singleton.mpr rfl)
  rw [List.getLast?_concat, Option.some.injEq]
  constructor
  · rintro rfl
    refine ⟨List.mem_concat_self, fun y hy => ?_⟩
    rcases List.mem_append.mp hy with hy | hy
    · exact Nat.le_of_lt (hlt y hy)
    · exact Nat.le_of_eq (congrArg place (List.mem_singleton.mp hy))
  · rintro ⟨hx, hmax⟩
    rcases List.mem_append.mp hx with hx | hx
    · exact absurd (hmax z List.mem_concat_self) (Nat.not_le.mpr (hlt x hx))
    · exact (List.mem_singleton.mp hx).symm

theorem forall₂_filterMap {α β : Type} {R : α → β → Prop} {f : α → Option β} {keep : α → Bool}
    (hkeep : ∀ a, (f a).isSome = keep a) (hR : ∀ a b, f a = some b → R a b) (xs : List α) :
    List.Forall₂ R (xs.filter keep) (xs.filterMap f) := by
  induction xs with
  | nil => exact .nil
  | cons x xs ih =>
    have hx := hkeep x
    cases hf : f x with
    | none =>
      rw [hf] at hx
      rw [List.filterMap_cons_none hf, List.filter_cons_of_neg (by simp [← hx])]
      exact ih
    | some y =>
      rw [hf] at hx
      rw [List.filterMap_cons_some hf, List.filter_cons_of_pos hx.symm]
      exact .cons (hR x y hf) ih

/-! ### Numbers -/

/-- The number that digits stand for, however many they are. -/
def Decimal.value? (t : Text) : Option Int :=
  if isDigits t then some (ofDigits t : Int) else none

instance (t : Text) : Decidable (Decimal.IsOverlong t) :=
  inferInstanceAs (Decidable (_ ∧ _))

/-- The items of format parameters that have a name and a value. -/
def FormatParameters.items (f : FormatParameters) : List (Text × Text) :=
  (f.parameters.splitOn ';').filterMap fun item =>
    match Text.cut '=' item with
    | (name, some value) => some (name, value)
    | (_, none) => none

namespace Payload

variable {p : Payload} {ps : List Payload} {as : AttributeList} {formats : List Text}
  {n r : Int}

theorem number?_eq_ok {t : Text} (h : ¬ Decimal.IsOverlong t) :
    number? t = .ok (Decimal.value? t) := by
  unfold number? Decimal.value?
  split
  · next hd =>
    have hlength : t.length ≤ Decimal.maxDigits := Nat.le_of_not_lt fun hlt => h ⟨hd, hlt⟩
    rw [Decimal.ofText?_of_splitSign (Decimal.splitSign_of_isDigits hd) hd hlength]
    rfl
  · rfl

/-- No format and no target of a retransmission has too many digits. -/
structure NumbersFit (formats : List Text) (as : AttributeList) : Prop where
  format : ∀ t ∈ formats, ¬ Decimal.IsOverlong t
  target : ∀ f ∈ as.formatParameters, ∀ item ∈ f.items,
    item.1 = "apt".toList → ¬ Decimal.IsOverlong item.2

instance (formats : List Text) (as : AttributeList) : Decidable (NumbersFit formats as) :=
  decidable_of_iff (_ ∧ _) ⟨fun h => ⟨h.1, h.2⟩, fun h => ⟨h.1, h.2⟩⟩

theorem NumbersFit.not_repeatsOverlong (h : NumbersFit formats as) (entry : Int × RtpMap) :
    ¬ RepeatsOverlong (parameterSets as) entry := by
  rintro ⟨-, apt, hapt, hlong⟩
  obtain ⟨ps, hps, hget⟩ := Option.bind_eq_some_iff.mp hapt
  obtain ⟨f, hf, rfl⟩ := get?_parameterSets hps
  have hmem := OrderedMap.mem_of_mem_ofList (OrderedMap.get?_eq_some_iff.mp hget)
  have hf : f ∈ as.formatParameters :=
    List.mem_filterMap.mpr ⟨_, hf, Attribute.formatParameters?_eq_some.mpr rfl⟩
  exact h.target f hf _ hmem rfl hlong

/-- Joining succeeds where the numbers fit. -/
theorem NumbersFit.exists_ofAttributes (h : NumbersFit formats as) :
    ∃ ps, ofAttributes formats as = .ok ps := by
  cases hps : ofAttributes formats as with
  | ok ps => exact ⟨ps, rfl⟩
  | error f =>
    rcases exists_ofAttributes_eq_error_iff.mp ⟨f, hps⟩ with ⟨entry, -, hlong⟩ | ⟨t, ht, hlong⟩
    · exact absurd hlong (h.not_repeatsOverlong entry)
    · exact absurd hlong (h.format t ht)

/-! ### The lines of a payload type -/

/-- The last codec of a payload type. -/
def lastCodec? (as : AttributeList) (n : Int) : Option RtpMap :=
  (as.rtpMaps.filter fun m => m.payloadType == n).getLast?

/-- The items of the last format parameters of a payload type. -/
def lastItems (as : AttributeList) (n : Int) : List (Text × Text) :=
  (((as.formatParameters.filter fun f => f.payloadType == n).getLast?).map
    FormatParameters.items).getD []

/-- Whether the last codec of a payload type carries media. -/
def carriesMedia (as : AttributeList) (n : Int) : Bool :=
  (lastCodec? as n).any fun m => isMedia m.codec

/-- The numbers among the formats that carry media, in order. -/
def listed (formats : List Text) (as : AttributeList) : List Int :=
  (formats.filterMap Decimal.value?).filter (carriesMedia as)

/-- The last codec of `r` is for retransmission, and its last parameters name
`n` as what is sent again. -/
structure SendsAgain (as : AttributeList) (r n : Int) : Prop where
  codec : ∃ m, lastCodec? as r = some m ∧ (m.codec == .known .rtx) = true
  target : ∃ apt, OrderedMap.lastValue? (lastItems as r) "apt".toList = some apt
    ∧ Decimal.value? apt = some n

/-- The place of the first codec of a payload type among all codecs. -/
def firstPlace (as : AttributeList) (r : Int) : Nat :=
  (as.rtpMaps.map RtpMap.payloadType).idxOf r

/-- What the lines say of the payload of a payload type. -/
structure IsJoinedFrom (as : AttributeList) (n : Int) (p : Payload) : Prop where
  codec : lastCodec? as n = some p.rtpMap
  parameters : p.parameters.entries = OrderedMap.settled (lastItems as n)
  feedback : p.feedback
    = (as.feedback.filter fun f => f.payloadType == some n).map fun f => (f.id, f.parameter)
  retransmission : ∀ r, p.retransmission = some r ↔ SendsAgain as r n
    ∧ ∀ q, SendsAgain as q n → firstPlace as q ≤ firstPlace as r

/-! ### Mappings and lines -/

theorem get?_codecs_eq (as : AttributeList) (n : Int) : (codecs as).get? n = lastCodec? as n := by
  rw [codecs, OrderedMap.get?_ofList_eq, OrderedMap.lastValue?, List.filter_map, List.getLast?_map,
    Option.map_map]
  exact Option.map_id'

theorem get?_parameterSets_eq (as : AttributeList) (n : Int) : (parameterSets as).get? n
    = ((as.formatParameters.filter fun f => f.payloadType == n).getLast?).map
      FormatParameters.byName := by
  rw [parameterSets, OrderedMap.get?_ofList_eq, OrderedMap.lastValue?, List.filter_map,
    List.getLast?_map, Option.map_map]
  rfl

/-- The parameters of a payload type are what its last items settle. -/
theorem entries_getD_parameterSets (as : AttributeList) (n : Int) :
    (((parameterSets as).get? n).getD .empty).entries = OrderedMap.settled (lastItems as n) := by
  rw [get?_parameterSets_eq, lastItems]
  cases (as.formatParameters.filter fun f => f.payloadType == n).getLast? with
  | none => rfl
  | some f => exact OrderedMap.entries_ofList_eq_settled f.items

theorem bind_get?_parameterSets (as : AttributeList) (n : Int) (name : Text) :
    ((parameterSets as).get? n).bind (·.get? name)
      = OrderedMap.lastValue? (lastItems as n) name := by
  rw [get?_parameterSets_eq, lastItems]
  cases (as.formatParameters.filter fun f => f.payloadType == n).getLast? with
  | none => rfl
  | some f => exact OrderedMap.get?_ofList_eq f.items name

/-! ### Retransmission -/

/-- What an entry of the codecs sends again, if it is for retransmission. -/
def target? (as : AttributeList) (entry : Int × RtpMap) : Option Int :=
  if entry.2.codec == .known .rtx then
    (OrderedMap.lastValue? (lastItems as entry.1) "apt".toList).bind Decimal.value?
  else none

theorem addRetransmission_eq_ok {entry : Int × RtpMap}
    (h : ¬ RepeatsOverlong (parameterSets as) entry) (found : OrderedMap Int Int) :
    addRetransmission (parameterSets as) found entry
      = .ok (((target? as entry).map fun t => found.insert t entry.1).getD found) := by
  unfold addRetransmission target?
  split
  · next hcodec =>
    rw [bind_get?_parameterSets]
    cases hapt : OrderedMap.lastValue? (lastItems as entry.1) "apt".toList with
    | none => rfl
    | some apt =>
      have hfit : ¬ Decimal.IsOverlong apt := fun hlong =>
        h ⟨hcodec, apt, (bind_get?_parameterSets as _ _).trans hapt, hlong⟩
      simp only [number?_eq_ok hfit, ok_bind, Option.bind_some]
      cases Decimal.value? apt <;> rfl
  · rfl

/-- The payload types for retransmission, each under what it sends again, in
the order of the codecs. -/
theorem retransmissions_eq_ofList
    (h : ∀ entry ∈ (codecs as).entries, ¬ RepeatsOverlong (parameterSets as) entry) :
    retransmissions as = .ok (.ofList ((codecs as).entries.filterMap fun e =>
      (target? as e).map fun t => (t, e.1))) := by
  rw [retransmissions, OrderedMap.ofList]
  generalize (OrderedMap.empty : OrderedMap Int Int) = found
  revert h
  induction (codecs as).entries generalizing found with
  | nil => exact fun _ => rfl
  | cons e es ih =>
    intro h
    obtain ⟨he, hes⟩ := List.forall_mem_cons.mp h
    rw [List.foldlM_cons, addRetransmission_eq_ok he, ok_bind, ih _ hes, List.filterMap_cons]
    cases target? as e <;> rfl

theorem target?_eq_some_iff {entry : Int × RtpMap} (h : entry ∈ (codecs as).entries) :
    target? as entry = some n ↔ SendsAgain as entry.1 n := by
  have hcodec : lastCodec? as entry.1 = some entry.2 := by
    rw [← get?_codecs_eq]
    exact OrderedMap.get?_eq_some_iff.mpr h
  unfold target?
  split
  · next hrtx =>
    rw [Option.bind_eq_some_iff]
    exact ⟨fun htarget => ⟨⟨_, hcodec, hrtx⟩, htarget⟩, fun hagain => hagain.target⟩
  · next hrtx =>
    refine iff_of_false (by simp) fun hagain => ?_
    obtain ⟨m, hm, hm'⟩ := hagain.codec
    obtain rfl := Option.some.inj (hcodec.symm.trans hm)
    exact hrtx hm'

/-- Codecs are entered in the order of their first lines. -/
theorem pairwise_entries_codecs (as : AttributeList) :
    (codecs as).entries.Pairwise fun e e' => firstPlace as e.1 < firstPlace as e'.1 := by
  have hkeys : (codecs as).keys = (as.rtpMaps.map RtpMap.payloadType).eraseDups := by
    rw [codecs, OrderedMap.keys_ofList, List.map_map]
    rfl
  have hpairwise := OrderedMap.pairwise_idxOf_eraseDups (as.rtpMaps.map RtpMap.payloadType)
  rw [← hkeys, OrderedMap.keys, List.pairwise_map] at hpairwise
  exact hpairwise

/-- Of several payload types that send a payload again, the one whose first
codec comes last is found. -/
theorem get?_retransmissions_eq_some_iff {rs : OrderedMap Int Int}
    (hfit : ∀ entry ∈ (codecs as).entries, ¬ RepeatsOverlong (parameterSets as) entry)
    (hrs : retransmissions as = .ok rs) : rs.get? n = some r ↔
      SendsAgain as r n ∧ ∀ q, SendsAgain as q n → firstPlace as q ≤ firstPlace as r := by
  let pairs := (codecs as).entries.filterMap fun e => (target? as e).map fun t => (t, e.1)
  let found := (pairs.filter fun e => e.1 == n).map Prod.snd
  have hget : rs.get? n = found.getLast? := by
    obtain rfl := Except.ok.inj (hrs.symm.trans (retransmissions_eq_ofList hfit))
    rw [OrderedMap.get?_ofList_eq, OrderedMap.lastValue?, ← List.getLast?_map]
  have hmem : ∀ {q}, q ∈ found ↔ SendsAgain as q n := by
    intro q
    simp only [found, pairs, List.mem_map, List.mem_filter, List.mem_filterMap]
    constructor
    · rintro ⟨_, ⟨⟨e, he, htarget⟩, hn⟩, rfl⟩
      obtain ⟨t, ht, rfl⟩ := Option.map_eq_some_iff.mp htarget
      exact (target?_eq_some_iff he).mp (eq_of_beq hn ▸ ht)
    · intro hagain
      obtain ⟨m, hm, -⟩ := hagain.codec
      have he := OrderedMap.get?_eq_some_iff.mp ((get?_codecs_eq as q).trans hm)
      refine ⟨(n, q), ⟨⟨_, he, ?_⟩, BEq.rfl⟩, rfl⟩
      rw [(target?_eq_some_iff he).mpr hagain, Option.map_some]
  have hrising : found.Pairwise fun a b => firstPlace as a < firstPlace as b := by
    refine List.pairwise_map.mpr (List.Pairwise.filter _ (List.pairwise_filterMap.mpr ?_))
    refine (pairwise_entries_codecs as).imp fun {e e'} hlt b hb b' hb' => ?_
    obtain ⟨-, -, rfl⟩ := Option.map_eq_some_iff.mp hb
    obtain ⟨-, -, rfl⟩ := Option.map_eq_some_iff.mp hb'
    exact hlt
  rw [hget, getLast?_eq_some_iff_of_pairwise hrising]
  simp only [hmem]

/-! ### Payloads -/

theorem isSome_behind? (as : AttributeList) (rs : OrderedMap Int Int) (n : Int) :
    (behind? as rs n).isSome = carriesMedia as n := by
  rw [behind?, get?_codecs_eq, carriesMedia]
  cases lastCodec? as n with
  | none => rfl
  | some m => cases hmedia : isMedia m.codec <;> simp [hmedia]

theorem isJoinedFrom_of_behind? {rs : OrderedMap Int Int}
    (hfit : ∀ entry ∈ (codecs as).entries, ¬ RepeatsOverlong (parameterSets as) entry)
    (hrs : retransmissions as = .ok rs) (h : behind? as rs n = some p) :
    IsJoinedFrom as n p := by
  obtain ⟨hcodec, -, hparameters, hfeedback, hr, -⟩ := behind?_eq_some h
  refine ⟨?_, ?_, hfeedback, fun r => ?_⟩
  · rw [← get?_codecs_eq, hcodec]
  · rw [hparameters, entries_getD_parameterSets]
  · rw [hr]
    exact get?_retransmissions_eq_some_iff hfit hrs

/-- What is joined are the payloads of the numbers among the formats that carry
media, in their order. -/
theorem forall₂_isJoinedFrom (h : ofAttributes formats as = .ok ps) :
    List.Forall₂ (IsJoinedFrom as) (listed formats as) ps := by
  have hfit : ¬ ((∃ entry ∈ (codecs as).entries, RepeatsOverlong (parameterSets as) entry)
      ∨ ∃ t ∈ formats, Decimal.IsOverlong t) := by
    rw [← exists_ofAttributes_eq_error_iff, h]
    simp
  rw [not_or] at hfit
  obtain ⟨rs, hrs, h⟩ := bind_eq_ok.mp h
  obtain ⟨ns, hns, h⟩ := bind_eq_ok.mp h
  obtain rfl := pure_eq_ok.mp h
  have hvalues : formats.mapM number? = .ok (formats.map Decimal.value?) := by
    rw [mapM_eq_ok, List.forall₂_map_right_iff, List.forall₂_same]
    exact fun t ht => number?_eq_ok fun hlong => hfit.2 ⟨t, ht, hlong⟩
  obtain rfl := Except.ok.inj (hns.symm.trans hvalues)
  have hpayloads : (formats.map Decimal.value?).filterMap (fun n => n.bind (behind? as rs))
      = (formats.filterMap Decimal.value?).filterMap (behind? as rs) := by
    rw [List.filterMap_map, List.filterMap_filterMap]
    rfl
  rw [hpayloads]
  refine forall₂_filterMap (isSome_behind? as rs) (fun n p hp => ?_) _
  exact isJoinedFrom_of_behind? (fun e he hlong => hfit.1 ⟨e, he, hlong⟩) hrs hp

/-- Where the numbers fit, joining makes one payload for each number among the
formats whose last codec carries media, in their order, and each is what the
lines say of its payload type. -/
theorem ofAttributes_isJoinedFrom (h : NumbersFit formats as) :
    ∃ ps, ofAttributes formats as = .ok ps
      ∧ List.Forall₂ (IsJoinedFrom as) (listed formats as) ps := by
  obtain ⟨ps, hps⟩ := h.exists_ofAttributes
  exact ⟨ps, hps, forall₂_isJoinedFrom hps⟩

/-- Lines that say several things of one payload type, and two payload types
that send it again. -/
def crossedLines : List Text :=
  ["rtpmap:97 rtx/90000", "rtpmap:96 red/90000", "rtpmap:98 RTX/90000", "rtpmap:96 VP8/90000/2",
    "fmtp:96 z=0", "fmtp:96 b=1;a;c=;b=2", "fmtp:97 apt=096", "fmtp:98 apt=97;apt=96",
    "rtpmap:97 rtx/8000", "rtcp-fb:* nack", "rtcp-fb:96 ccm fir", "rtcp-fb:96 nack"].map
    String.toList

def crossedFormats : List Text := ["0096", "x", "98", "95", "96"].map String.toList

theorem ofAttributes_isJoinedFrom_crossedLines :
    ∃ as, crossedLines.mapM Attribute.ofText = .ok as
      ∧ NumbersFit crossedFormats as ∧ listed crossedFormats as = [96, 96]
      ∧ ∃ ps, ofAttributes crossedFormats as = .ok ps
        ∧ List.Forall₂ (IsJoinedFrom as) (listed crossedFormats as) ps := by
  obtain ⟨as, has, hfit, hlisted⟩ := exists_ok_of_any (x := crossedLines.mapM Attribute.ofText)
    (P := fun as => NumbersFit crossedFormats as ∧ listed crossedFormats as = [96, 96])
    (by decide +kernel)
  exact ⟨as, has, hfit, hlisted, ofAttributes_isJoinedFrom hfit⟩

end Payload

end OfferAnswer
