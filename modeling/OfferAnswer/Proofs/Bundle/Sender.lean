/-
OfferAnswer/Proofs/Bundle/Sender.lean

The encodings of a medium, told from the lines alone.

Streams are encodings where they come without restrictions.  Besides them
there is one source at most: the lines say which one sends (`Sends`), and it
counts only if the last line that names it gives a name (`IsNamed`).
`ofAttributes_isReadFrom` says that these encodings are read, and that they
are read again from the lines that are written of them.
-/
import OfferAnswer.Proofs.Bundle.Encoding

namespace OfferAnswer

open Text

/-! ### Lists -/

/-- The last member to pass a test is one with none after it. -/
theorem getLast?_filter_eq_some_iff {α : Type} {p : α → Bool} {xs : List α} {x : α} :
    (xs.filter p).getLast? = some x
      ↔ ∃ before after, xs = before ++ x :: after ∧ p x = true ∧ ∀ y ∈ after, p y = false := by
  rw [List.getLast?_filter, List.find?_eq_some_iff_append]
  constructor
  · rintro ⟨hx, after, before, hxs, hafter⟩
    refine ⟨before.reverse, after.reverse, ?_, hx, fun y hy => ?_⟩
    · rw [← List.reverse_reverse xs, hxs]
      simp
    · simpa using hafter y (List.mem_reverse.mp hy)
  · rintro ⟨before, after, rfl, hx, hafter⟩
    refine ⟨hx, after.reverse, before.reverse, by simp, fun y hy => ?_⟩
    simpa using hafter y (List.mem_reverse.mp hy)

/-! ### Sources -/

/-- A group of sources that form a flow, whatever the case of its meaning. -/
def SourceGroup.IsFlow (g : SourceGroup) : Prop := lower g.meaning.text = "fid".toList

theorem SourceGroup.beq_flow_iff (g : SourceGroup) :
    (g.meaning == .known .flow) = true ↔ g.IsFlow := by
  have hspelling : lower (Vocabulary.spelling SourceGroupMeaning.flow) = "fid".toList := by decide
  have hbeq : (g.meaning == .known .flow) = true
      ↔ lower g.meaning.text = lower (Vocabulary.spelling SourceGroupMeaning.flow) := Token.beq_iff
  rw [hbeq, hspelling]
  exact Iff.rfl

/-- An attribute that is for the name of a source. -/
def SourceAttribute.Names (a : SourceAttribute) (s : Int) : Prop :=
  a.source = s ∧ lower a.name = "cname".toList

namespace Encoding

variable {as : AttributeList} {es : List Encoding} {e : Encoding} {s : Int} {r : Option Int}
  {cname : Text}

/-- The source that sends, and the one in which it is sent again.  They are
the first two members of the first flow; only without a flow it is the source
of the first line, which is not sent again. -/
inductive Sends (as : AttributeList) : Int → Option Int → Prop
  | flow {before after : List SourceGroup} {g : SourceGroup} {s : Int} {rest : List Int}
    (hgroups : as.sourceGroups = before ++ g :: after) (hbefore : ∀ g' ∈ before, ¬ g'.IsFlow)
    (hg : g.IsFlow) (hsources : g.sources = s :: rest) : Sends as s rest.head?
  | first {a : SourceAttribute} {rest : List SourceAttribute}
    (hgroups : ∀ g ∈ as.sourceGroups, ¬ g.IsFlow) (hsources : as.sources = a :: rest) :
    Sends as a.source none

/-- The last line for the name of a source gives it a name. -/
def IsNamed (as : AttributeList) (s : Int) (cname : Text) : Prop :=
  ∃ before a after, as.sources = before ++ a :: after
    ∧ a.Names s ∧ (∀ b ∈ after, ¬ b.Names s) ∧ a.value = some cname

/-- What the lines say of the source of a medium. -/
inductive IsSource (as : AttributeList) : Encoding → Prop
  | mk {cname : Text} {s : Int} {r : Option Int} (hsends : Sends as s r)
    (hnamed : IsNamed as s cname) : IsSource as (.source cname s r)

/-- The streams that come without restrictions. -/
def unrestricted (as : AttributeList) : List Encoding :=
  (as.streamIds.filter fun s => s.restrictions = none).map fun s => .stream s.id s.direction

/-! ### What is read -/

theorem filterMap_ofStreamId? (as : AttributeList) :
    as.streamIds.filterMap ofStreamId? = unrestricted as := by
  unfold unrestricted
  induction as.streamIds with
  | nil => rfl
  | cons s ss ih =>
    cases hs : s.restrictions with
    | none => simp [ofStreamId?, hs, ih]
    | some t => simp [ofStreamId?, hs, ih]

theorem sender?_eq_some_iff : sender? as = some (s, r) ↔ Sends as s r := by
  have hnone : as.sourceGroups.find? (fun g => g.meaning == .known .flow) = none
      ↔ ∀ g ∈ as.sourceGroups, ¬ g.IsFlow := by
    rw [List.find?_eq_none]
    exact forall₂_congr fun g _ => not_congr g.beq_flow_iff
  have hsome : ∀ g, as.sourceGroups.find? (fun g => g.meaning == .known .flow) = some g
      ↔ g.IsFlow ∧ ∃ before after, as.sourceGroups = before ++ g :: after
        ∧ ∀ g' ∈ before, ¬ g'.IsFlow := by
    intro g
    rw [List.find?_eq_some_iff_append, g.beq_flow_iff]
    refine and_congr_right fun _ => exists₂_congr fun before after => and_congr_right fun _ => ?_
    refine forall₂_congr fun g' _ => ?_
    rw [Bool.not_eq_true', ← Bool.not_eq_true, g'.beq_flow_iff]
  constructor
  · intro h
    unfold sender? at h
    split at h
    · next g hg =>
      obtain ⟨hflow, before, after, hgroups, hbefore⟩ := (hsome g).mp hg
      obtain ⟨rfl, rfl⟩ := Prod.mk.inj (Option.some.inj h)
      exact .flow hgroups hbefore hflow (List.cons_head_tail g.ne_nil).symm
    · next hgroups =>
      obtain ⟨a, ha, h⟩ := Option.map_eq_some_iff.mp h
      obtain ⟨rfl, rfl⟩ := Prod.mk.inj h
      obtain ⟨rest, hsources⟩ := List.head?_eq_some_iff.mp ha
      exact .first (hnone.mp hgroups) hsources
  · intro h
    unfold sender?
    cases h with
    | flow hgroups hbefore hflow hsources =>
      rw [(hsome _).mpr ⟨hflow, _, _, hgroups, hbefore⟩]
      simp only [hsources, List.head_cons, List.tail_cons]
    | first hgroups hsources =>
      rw [hnone.mpr hgroups, hsources]
      rfl

theorem canonicalName?_eq_some_iff : canonicalName? as s = some cname ↔ IsNamed as s cname := by
  have hnames : ∀ a : SourceAttribute,
      (a.source == s && lower a.name == "cname".toList) = true ↔ a.Names s := by
    intro a
    rw [Bool.and_eq_true, beq_iff_eq, beq_iff_eq]
    exact Iff.rfl
  unfold canonicalName?
  rw [Option.bind_eq_some_iff]
  simp only [getLast?_filter_eq_some_iff, hnames, ← Bool.not_eq_true]
  constructor
  · rintro ⟨a, ⟨before, after, hsources, ha, hafter⟩, hvalue⟩
    exact ⟨before, a, after, hsources, ha, hafter, hvalue⟩
  · rintro ⟨before, a, after, hsources, ha, hafter, hvalue⟩
    exact ⟨a, ⟨before, after, hsources, ha, hafter⟩, hvalue⟩

/-- The source that is read is the one that the lines tell of. -/
theorem ofSources?_eq_some_iff : ofSources? as = some e ↔ IsSource as e := by
  unfold ofSources?
  simp only [Option.bind_eq_bind, Option.bind_eq_some_iff, Prod.exists, sender?_eq_some_iff,
    canonicalName?_eq_some_iff]
  constructor
  · rintro ⟨s, r, hsends, cname, hnamed, h⟩
    obtain rfl := Option.some.inj h
    exact ⟨hsends, hnamed⟩
  · rintro ⟨hsends, hnamed⟩
    exact ⟨_, _, hsends, _, hnamed, rfl⟩

/-! ### What is written -/

/-- A simulcast is no line that reading looks at. -/
theorem lines_attributes (es : List Encoding) : Lines (attributes es) es := by
  have hview : ∀ {β : Type} {view : Attribute → Option β},
      (∀ s, view (.simulcast s) = none) →
      (attributes es).filterMap view = (es.flatMap ownAttributes).filterMap view := by
    intro β view hnone
    unfold attributes
    rw [List.filterMap_append]
    split <;> simp [hnone]
  exact ⟨hview fun _ => rfl, hview fun _ => rfl, hview fun _ => rfl⟩

/-- The encodings of a medium are the streams without restrictions, in order,
and then the source that the lines tell of, if there is one.  The first member
of a group, which is asked for, is always there.  Read again from their own
attributes, the encodings are the same. -/
theorem ofAttributes_isReadFrom (as : AttributeList) :
    (∃ source : Option Encoding, ofAttributes as = unrestricted as ++ source.toList
        ∧ ∀ e, source = some e ↔ IsSource as e)
      ∧ (∀ g ∈ as.sourceGroups, g.sources ≠ [])
      ∧ ofAttributes (attributes (ofAttributes as)) = ofAttributes as := by
  refine ⟨⟨ofSources? as, ?_, fun e => ofSources?_eq_some_iff⟩, fun g _ => g.ne_nil, ?_⟩
  · rw [ofAttributes, filterMap_ofStreamId?]
  · exact ofAttributes_of_lines (ordered_ofAttributes as) (lines_attributes _)

/-- Lines of several sources, two of which form a flow that is not the first
group, with a name that is given twice. -/
def crossedSources : List Text :=
  ["ssrc:1 cname:a", "rid:x send", "ssrc-group:FEC 1 5", "ssrc:2 CName:b", "ssrc:2 msid:m t",
    "rid:y recv max-fps=30", "ssrc-group:fid 2 3 4", "ssrc:2 cname:c", "ssrc-group:FID 1 2",
    "ssrc:3 cname", "rid:x,z recv"].map String.toList

theorem ofAttributes_isReadFrom_crossedSources :
    ∃ as : AttributeList, crossedSources.mapM Attribute.ofText = .ok as
      ∧ ofAttributes as = [.stream "x".toList .send, .stream "x,z".toList .recv,
          .source "c".toList 2 (some 3)]
      ∧ (∃ source : Option Encoding, ofAttributes as = unrestricted as ++ source.toList
          ∧ ∀ e, source = some e ↔ IsSource as e)
      ∧ (∀ g ∈ as.sourceGroups, g.sources ≠ [])
      ∧ ofAttributes (attributes (ofAttributes as)) = ofAttributes as := by
  obtain ⟨as, has, hread⟩ := Outcome.exists_ok_of_any (x := crossedSources.mapM Attribute.ofText)
    (P := fun as => ofAttributes as = [.stream "x".toList .send, .stream "x,z".toList .recv,
      .source "c".toList 2 (some 3)]) (by decide +kernel)
  exact ⟨as, has, hread, ofAttributes_isReadFrom as⟩

end Encoding

end OfferAnswer
