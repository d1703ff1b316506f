/-
OfferAnswer/Proofs/Attribute/View.lean

What the views of attributes find: the attributes of their kinds, and these
only.

Every attribute has a subject, and a view looks at one subject only.  So a view
of many attributes is settled by those of its subject (`filterMap_about`).
-/
import OfferAnswer.Attribute.View
import OfferAnswer.Proofs.Attribute.Basic

namespace OfferAnswer

variable {α : Type} {a : Attribute} {as : AttributeList} {x : α}

namespace Attribute

theorem labelled?_eq_some {l : Label} {t : Text} :
    labelled? l a = some t ↔ a = .label l t := by
  cases a <;> simp [labelled?]

theorem candidate?_eq_some {c : Candidate} : candidate? a = some c ↔ a = .candidate c := by
  cases a <;> simp [candidate?]

theorem certificate?_eq_some {h : CertificateHash} :
    certificate? a = some h ↔ a = .certificate h := by
  cases a <;> simp [certificate?]

theorem iceOptions?_eq_some {os : List (Token IceOption)} :
    iceOptions? a = some os ↔ a = .iceOptions os := by
  cases a <;> simp [iceOptions?]

theorem setup?_eq_some {r : SetupRole} : setup? a = some r ↔ a = .setup r := by
  cases a <;> simp [setup?]

theorem extension?_eq_some {e : ExtensionMap} : extension? a = some e ↔ a = .extension e := by
  cases a <;> simp [extension?]

theorem rtpMap?_eq_some {m : RtpMap} : rtpMap? a = some m ↔ a = .rtpMap m := by
  cases a <;> simp [rtpMap?]

theorem formatParameters?_eq_some {f : FormatParameters} :
    formatParameters? a = some f ↔ a = .formatParameters f := by
  cases a <;> simp [formatParameters?]

theorem feedback?_eq_some {f : Feedback} : feedback? a = some f ↔ a = .feedback f := by
  cases a <;> simp [feedback?]

theorem source?_eq_some {s : SourceAttribute} : source? a = some s ↔ a = .source s := by
  cases a <;> simp [source?]

theorem sourceGroup?_eq_some {g : SourceGroup} :
    sourceGroup? a = some g ↔ a = .sourceGroup g := by
  cases a <;> simp [sourceGroup?]

theorem streamId?_eq_some {s : StreamId} : streamId? a = some s ↔ a = .streamId s := by
  cases a <;> simp [streamId?]

/-! ### Subjects -/

/-- What an attribute of a medium may speak of. -/
inductive Subject where
  | transport
  | medium
  | extension
  | payload
  | encoding
  | unregistered
  deriving DecidableEq

def subject : Attribute → Subject
  | label .mid _ => .medium
  | label .. | iceOptions _ | candidate _ | certificate _ | setup _ => .transport
  | extension _ => .extension
  | rtpMap _ | formatParameters _ | feedback _ => .payload
  | source _ | sourceGroup _ | streamId _ => .encoding
  | other .. => .unregistered
  | _ => .medium

theorem subject_of_kind? (h : a.kind? = none) : a.subject = .unregistered := by
  obtain ⟨name, value, rfl⟩ := kind?_eq_none_iff.mp h
  rfl

end Attribute

namespace AttributeList

open Attribute (Subject)

/-- The attributes that speak of a subject. -/
def about (σ : Subject) (as : AttributeList) : AttributeList := as.filter fun a => a.subject = σ

variable {σ τ : Subject}

theorem about_append {as bs : AttributeList} : about σ (as ++ bs) = about σ as ++ about σ bs :=
  List.filter_append ..

/-- Attributes of one subject are all of those that speak of it. -/
theorem about_of_forall (h : ∀ a ∈ as, a.subject = τ) :
    about σ as = if τ = σ then as else [] := by
  split
  · next he => exact List.filter_eq_self.mpr fun a ha => by simp [h a ha, he]
  · next hne => exact List.filter_eq_nil_iff.mpr fun a ha => by simp [h a ha, hne]

/-- A view of one subject looks past all others. -/
theorem filterMap_about {view : Attribute → Option α} {mk : α → Attribute}
    (hview : ∀ {a x}, view a = some x ↔ a = mk x) (hmk : ∀ x, (mk x).subject = σ) :
    (about σ as).filterMap view = as.filterMap view := by
  rw [about, List.filterMap_filter]
  refine List.filterMap_congr fun a _ => ?_
  split
  · rfl
  · next hne =>
    cases hx : view a with
    | none => rfl
    | some x =>
      refine absurd ?_ hne
      rw [hview.mp hx, hmk x]
      exact decide_eq_true rfl

/-- A view finds what stands in the list. -/
theorem mem_of_mem_filterMap {view : Attribute → Option α} {mk : α → Attribute}
    (hview : ∀ {a x}, view a = some x ↔ a = mk x) (h : x ∈ as.filterMap view) : mk x ∈ as := by
  obtain ⟨a, ha, hx⟩ := List.mem_filterMap.mp h
  exact hview.mp hx ▸ ha

theorem mem_of_findSome? {view : Attribute → Option α} {mk : α → Attribute}
    (hview : ∀ {a x}, view a = some x ↔ a = mk x) (h : as.findSome? view = some x) :
    mk x ∈ as := by
  obtain ⟨a, ha, hx⟩ := List.exists_of_findSome?_eq_some h
  exact hview.mp hx ▸ ha

/-- A flag is found if it stands there, unless an attribute of another name is
taken for it. -/
theorem hasFlag_iff_of_find? {f : Attribute.Flag} (h : ∀ a ∈ as, a.kind? = none →
    Vocabulary.find? (κ := Attribute.Kind) a.name = none) :
    as.hasFlag f = true ↔ .flag f ∈ as := by
  rw [hasFlag, hasKind, has, List.any_eq_true]
  constructor
  · rintro ⟨a, ha, hname⟩
    rw [Text.sameLower_iff] at hname
    cases hk : a.kind? with
    | none =>
      have hfind : Vocabulary.find? (κ := Attribute.Kind) a.name = some (.flag f) :=
        Vocabulary.find?_eq_some_iff.mpr hname.symm
      rw [h a ha hk] at hfind
      exact nomatch hfind
    | some k =>
      -- Registered names differ in more than case.
      rw [Attribute.name_of_kind? hk] at hname
      obtain rfl :=
        Vocabulary.spelling_inj k (Vocabulary.complete k) _ (Vocabulary.complete _) hname
      have hflag : a = .flag f := by
        cases a <;> simp_all [Attribute.kind?]
      exact hflag ▸ ha
  · exact fun hm => ⟨_, hm, Text.sameLower_iff.mpr rfl⟩

/-- Among registered attributes, a flag is found if it stands there. -/
theorem hasFlag_iff {f : Attribute.Flag} (h : ∀ a ∈ as, a.kind? ≠ none) :
    as.hasFlag f = true ↔ .flag f ∈ as :=
  hasFlag_iff_of_find? fun a ha hk => absurd hk (h a ha)

/-- An attribute that was read under another name is not taken for a flag. -/
theorem hasFlag_iff_of_wellFormed {p : Char → Prop} {f : Attribute.Flag}
    (h : ∀ a ∈ as, a.WellFormed p) : as.hasFlag f = true ↔ .flag f ∈ as := by
  refine hasFlag_iff_of_find? fun a ha hk => ?_
  obtain ⟨name, value, rfl⟩ := Attribute.kind?_eq_none_iff.mp hk
  exact (h _ ha).1.2.2.1

end AttributeList

end OfferAnswer
