/-
OfferAnswer/Proofs/Bundle/Conditions.lean

When a description means a bundle, and which error it gets otherwise.

What a description has to say is a list of conditions, each with the fault that
is reported where it fails: those of the transport first, and then those of
each medium.  A computation is decided by such a list (`DecidedBy`) if it
succeeds where they all hold and otherwise fails with the first that does not.
`ofSession_decided` says that reading bundles is decided by the conditions of
the description.
-/
import OfferAnswer.Proofs.Bundle.Offered
import OfferAnswer.Proofs.Bundle.Table

namespace OfferAnswer

open Text Outcome AttributeList

/-! ### Conditions -/

namespace Bundle

/-- Something that a description has to say, and the fault if it does not. -/
structure Condition where
  holds : Prop
  fault : Fault

/-- The first of some conditions to fail is one with this fault. -/
def FirstFailing (cs : List Condition) (f : Fault) : Prop :=
  ∃ before c after, cs = before ++ c :: after
    ∧ (∀ c' ∈ before, c'.holds) ∧ ¬ c.holds ∧ c.fault = f

/-- A computation succeeds only where all conditions hold, and fails only with
the first that does not. -/
def DecidedBy {α : Type} (cs : List Condition) : Except Fault α → Prop
  | .ok _ => ∀ c ∈ cs, c.holds
  | .error f => FirstFailing cs f

variable {α β : Type} {cs ds : List Condition} {c : Condition} {f : Fault} {x : Except Fault α}

theorem FirstFailing.append (h : FirstFailing cs f) (ds : List Condition) :
    FirstFailing (cs ++ ds) f := by
  obtain ⟨before, c, after, rfl, hbefore, hc⟩ := h
  exact ⟨before, c, after ++ ds, by simp, hbefore, hc⟩

theorem FirstFailing.after (h : FirstFailing ds f) (hcs : ∀ c ∈ cs, c.holds) :
    FirstFailing (cs ++ ds) f := by
  obtain ⟨before, c, after, rfl, hbefore, hc⟩ := h
  refine ⟨cs ++ before, c, after, by simp, ?_, hc⟩
  exact List.forall_mem_append.mpr ⟨hcs, hbefore⟩

/-- Where a condition fails, not all hold. -/
theorem FirstFailing.not_forall (h : FirstFailing cs f) : ¬ ∀ c ∈ cs, c.holds := by
  obtain ⟨before, c, after, rfl, -, hc, -⟩ := h
  exact fun hall => hc (hall c (by simp))

/-- The head is the first to fail, or it holds and stands in front of that. -/
theorem firstFailing_cons_iff : FirstFailing (c :: cs) f ↔
    (¬ c.holds ∧ c.fault = f) ∨ (c.holds ∧ FirstFailing cs f) := by
  constructor
  · rintro ⟨_ | ⟨b, before⟩, c', after, hcs, hbefore, hc'⟩
    · obtain ⟨rfl, -⟩ := List.cons.inj hcs
      exact .inl hc'
    · obtain ⟨rfl, rfl⟩ := List.cons.inj hcs
      obtain ⟨hb, hbefore⟩ := List.forall_mem_cons.mp hbefore
      exact .inr ⟨hb, before, c', after, rfl, hbefore, hc'⟩
  · rintro (⟨hc, hf⟩ | ⟨hc, before, c', after, rfl, hbefore, hc'⟩)
    · exact ⟨[], c, cs, rfl, List.forall_mem_nil _, hc, hf⟩
    · exact ⟨c :: before, c', after, rfl, List.forall_mem_cons.mpr ⟨hc, hbefore⟩, hc'⟩

theorem FirstFailing.unique {f' : Fault} (h : FirstFailing cs f) (h' : FirstFailing cs f') :
    f = f' := by
  induction cs with
  | nil =>
    obtain ⟨before, c, after, hcs, -⟩ := h
    simp at hcs
  | cons c cs ih =>
    rw [firstFailing_cons_iff] at h h'
    rcases h with ⟨hc, rfl⟩ | ⟨hc, h⟩ <;> rcases h' with ⟨hc', rfl⟩ | ⟨hc', h'⟩
    · rfl
    · exact absurd hc' hc
    · exact absurd hc hc'
    · exact ih h h'

/-! ### Decided computations -/

namespace DecidedBy

theorem ok (a : α) : DecidedBy [] (.ok a) := List.forall_mem_nil _

/-- A condition that fails decides at once. -/
theorem fails (h : ¬ c.holds) (cs : List Condition) :
    DecidedBy (c :: cs) (.error c.fault : Except Fault α) :=
  firstFailing_cons_iff.mpr (.inl ⟨h, rfl⟩)

/-- A condition that holds leaves it to the others. -/
theorem cons (hc : c.holds) (h : DecidedBy cs x) : DecidedBy (c :: cs) x := by
  cases x with
  | ok a => exact List.forall_mem_cons.mpr ⟨hc, h⟩
  | error f => exact firstFailing_cons_iff.mpr (.inr ⟨hc, h⟩)

/-- The second of two computations is decided by what comes after the
conditions of the first. -/
theorem bind {g : α → Except Fault β} (hx : DecidedBy cs x)
    (hg : ∀ a, x = .ok a → DecidedBy ds (g a)) : DecidedBy (cs ++ ds) (x >>= g) := by
  cases x with
  | error f => exact FirstFailing.append hx ds
  | ok a =>
    rw [ok_bind]
    have hg := hg a rfl
    cases hga : g a with
    | ok b =>
      rw [hga] at hg
      exact List.forall_mem_append.mpr ⟨hx, hg⟩
    | error f =>
      rw [hga] at hg
      exact FirstFailing.after hg hx

/-- What is done with a result can be left out of sight. -/
theorem map (hx : DecidedBy cs x) (g : α → β) : DecidedBy cs (x >>= fun a => pure (g a)) := by
  rw [← List.append_nil cs]
  exact hx.bind fun a _ => ok (g a)

/-- Elements that are each decided by conditions of their own are together
decided by those of all, in the order of the elements. -/
theorem mapM {γ : Type} {conditions : γ → List Condition} {g : γ → Except Fault β} {zs : List γ}
    (h : ∀ z ∈ zs, DecidedBy (conditions z) (g z)) :
    DecidedBy (zs.flatMap conditions) (zs.mapM g) := by
  induction zs with
  | nil => exact ok []
  | cons z zs ih =>
    obtain ⟨hz, hzs⟩ := List.forall_mem_cons.mp h
    rw [List.flatMap_cons, List.mapM_cons]
    exact hz.bind fun b _ => (ih hzs).map (b :: ·)

theorem exists_ok_iff (h : DecidedBy cs x) : (∃ a, x = .ok a) ↔ ∀ c ∈ cs, c.holds := by
  cases x with
  | ok a => exact iff_of_true ⟨a, rfl⟩ h
  | error f => exact iff_of_false nofun (FirstFailing.not_forall h)

theorem eq_error_iff (h : DecidedBy cs x) : x = .error f ↔ FirstFailing cs f := by
  cases x with
  | ok a => exact iff_of_false nofun fun hf => hf.not_forall h
  | error f' =>
    refine ⟨fun hf => Except.error.inj hf ▸ h, fun hf => ?_⟩
    rw [FirstFailing.unique h hf]

end DecidedBy

end Bundle

/-! ### Media -/

/-- A medium has an identifier, and not two directions. -/
def MediaSection.conditions (m : MediaSection) : List Bundle.Condition :=
  [⟨∃ mid, Attribute.label .mid mid ∈ m.attributes, .noMid⟩,
   ⟨∀ d d', Attribute.flag (.direction d) ∈ m.attributes →
      Attribute.flag (.direction d') ∈ m.attributes → d = d', .directions⟩]

theorem AttributeList.isSome_labelled?_iff (as : AttributeList) (l : Attribute.Label) :
    (as.findSome? (Attribute.labelled? l)).isSome ↔ ∃ value, Attribute.label l value ∈ as := by
  rw [List.findSome?_isSome_iff]
  simp only [Option.isSome_iff_exists, Attribute.labelled?_eq_some]
  constructor
  · rintro ⟨_, ha, value, rfl⟩
    exact ⟨value, ha⟩
  · rintro ⟨value, ha⟩
    exact ⟨_, ha, value, rfl⟩

/-- There is one direction unless two different ones are stated. -/
theorem MediaDirection.ofAttributes_decided {as : AttributeList}
    (h : ∀ a ∈ as, a.WellFormed InLine) :
    Bundle.DecidedBy [⟨∀ d d', Attribute.flag (.direction d) ∈ as →
      Attribute.flag (.direction d') ∈ as → d = d', .directions⟩] (ofAttributes as) := by
  unfold ofAttributes
  -- What is stated are the directions among the attributes, each of them once.
  have hmem : ∀ d, d ∈ (Vocabulary.members (κ := MediaDirection)).filter
      (fun d => as.hasFlag (.direction d)) ↔ Attribute.flag (.direction d) ∈ as := by
    intro d
    rw [List.mem_filter, hasFlag_iff_of_wellFormed h]
    exact and_iff_right (Vocabulary.complete d)
  have hnodup : ((Vocabulary.members (κ := MediaDirection)).filter
      fun d => as.hasFlag (.direction d)).Nodup := List.Nodup.filter _ (by decide)
  generalize (Vocabulary.members (κ := MediaDirection)).filter
    (fun d => as.hasFlag (.direction d)) = stated at hmem hnodup
  rcases stated with _ | ⟨d, _ | ⟨d', ds⟩⟩
  · refine .cons (fun d _ hd => ?_) (.ok _)
    exact nomatch (hmem d).mpr hd
  · refine .cons (fun d₁ d₂ hd₁ hd₂ => ?_) (.ok _)
    rw [List.mem_singleton.mp ((hmem d₁).mpr hd₁), List.mem_singleton.mp ((hmem d₂).mpr hd₂)]
  · refine .fails (fun hsame => ?_) []
    have heq : d = d' := hsame d d' ((hmem d).mp (by simp)) ((hmem d').mp (by simp))
    exact (List.nodup_cons.mp hnodup).1 (by simp [heq])

theorem RtpMedia.ofSection_decided {m : MediaSection} (h : m.Sound)
    (hfit : Payload.NumbersFit m.medium.formats m.attributes) :
    Bundle.DecidedBy m.conditions (ofSection m) := by
  have hmid := isSome_labelled?_iff m.attributes .mid
  unfold ofSection MediaSection.conditions
  split
  · next hnone =>
    rw [hnone] at hmid
    exact .fails (fun hlabel => nomatch hmid.mpr hlabel) _
  · next mid hsome =>
    rw [hsome] at hmid
    refine .cons (hmid.mp rfl) ?_
    obtain ⟨ps, hps⟩ := hfit.exists_ofAttributes
    rw [hps, Except.mapError, ok_bind]
    exact (MediaDirection.ofAttributes_decided h.attributes).map _

/-! ### Sessions -/

/-- The first medium or the session itself has a label. -/
def Session.FirstHas (s : Session) (l : Attribute.Label) : Prop :=
  ∃ first ∈ s.media.head?, ∃ value, Attribute.label l value ∈ first.attributes ++ s.attributes

theorem Session.firstHas_iff {s : Session} {first : MediaSection} {rest : List MediaSection}
    (h : s.media = first :: rest) (l : Attribute.Label) : s.FirstHas l
      ↔ ((first.attributes ++ s.attributes).findSome? (Attribute.labelled? l)).isSome := by
  rw [isSome_labelled?_iff, FirstHas, h]
  simp

/-- A description has a medium and the credentials of the transport, and its
media are as they should be. -/
def Session.conditions (s : Session) : List Bundle.Condition :=
  [⟨s.media ≠ [], .noMedia⟩, ⟨s.FirstHas .iceUser, .noUser⟩, ⟨s.FirstHas .icePassword, .noPassword⟩]
    ++ s.media.flatMap MediaSection.conditions

namespace Bundle

variable {s : Session}

theorem decidedBy_conditions (h : ∀ m ∈ s.media, m.Sound)
    (hfit : ∀ m ∈ s.media, Payload.NumbersFit m.medium.formats m.attributes) :
    DecidedBy s.conditions (ofSession s) := by
  have hmedia : DecidedBy (s.media.flatMap MediaSection.conditions)
      (s.media.mapM RtpMedia.ofSection) :=
    .mapM fun m hm => RtpMedia.ofSection_decided (h m hm) (hfit m hm)
  unfold ofSession Session.conditions
  split
  · next hnone => exact .fails (not_not_intro hnone) _
  · next first rest hcons =>
    have huser := Session.firstHas_iff hcons .iceUser
    have hpassword := Session.firstHas_iff hcons .icePassword
    simp only [← List.findSome?_append]
    refine .cons (hcons ▸ List.cons_ne_nil _ _) ?_
    cases huser' : (first.attributes ++ s.attributes).findSome? (Attribute.labelled? .iceUser) with
    | none =>
      rw [huser'] at huser
      exact .fails (fun hhas => nomatch huser.mp hhas) _
    | some user =>
      rw [huser'] at huser
      refine .cons (huser.mpr rfl) ?_
      cases hpassword' :
          (first.attributes ++ s.attributes).findSome? (Attribute.labelled? .icePassword) with
      | none =>
        rw [hpassword'] at hpassword
        exact .fails (fun hhas => nomatch hpassword.mp hhas) _
      | some password =>
        rw [hpassword'] at hpassword
        exact .cons (hpassword.mpr rfl) (hmedia.map _)

/-- A description that was read, with numbers that fit, means a bundle just
where its conditions hold, and otherwise gets the fault of the first that
fails.  Nothing else can be amiss: a group of sources, of which the first is
asked for, always has one. -/
theorem ofSession_decided {raw : Text ⊕ List UInt8}
    (hs : raw.elim Session.ofText Session.ofBytes = .ok s)
    (hfit : ∀ m ∈ s.media, Payload.NumbersFit m.medium.formats m.attributes) :
    ((∃ b, ofSession s = .ok b) ↔ ∀ c ∈ s.conditions, c.holds)
      ∧ (∀ f, ofSession s = .error f ↔ FirstFailing s.conditions f)
      ∧ ∀ m ∈ s.media, ∀ g ∈ m.attributes.sourceGroups, g.sources ≠ [] := by
  have hsound := Session.sound_of_ofRaw hs
  have hdecided := decidedBy_conditions (fun m hm => hsound.media m hm) hfit
  exact ⟨hdecided.exists_ok_iff, fun f => hdecided.eq_error_iff, fun _ _ g _ => g.ne_nil⟩

/-- A description of three media: one states its direction twice, one has two
directions, and one has no identifier. -/
def crossedDirections : Text :=
  ("v=0\r\no=- 1 1 IN IP4 x\r\ns=-\r\nt=0 0\r\na=ice-ufrag:u\r\n"
    ++ "m=audio 9 RTP/AVP 0\r\na=ice-pwd:p\r\na=mid:0\r\na=sendonly\r\na=SendOnly\r\n"
    ++ "m=audio 9 RTP/AVP 0\r\na=mid:1\r\na=sendonly\r\na=inactive\r\n"
    ++ "m=audio 9 RTP/AVP 0\r\n").toList

theorem ofSession_decided_crossedDirections : ∃ s, Session.ofText crossedDirections = .ok s
    ∧ (∀ m ∈ s.media, Payload.NumbersFit m.medium.formats m.attributes)
    ∧ FirstFailing s.conditions .directions
    ∧ ((∃ b, ofSession s = .ok b) ↔ ∀ c ∈ s.conditions, c.holds)
    ∧ (∀ f, ofSession s = .error f ↔ FirstFailing s.conditions f)
    ∧ ∀ m ∈ s.media, ∀ g ∈ m.attributes.sourceGroups, g.sources ≠ [] := by
  obtain ⟨s, hs, hfit, hfault⟩ := exists_ok_of_any (x := Session.ofText crossedDirections)
    (P := fun s => (∀ m ∈ s.media, Payload.NumbersFit m.medium.formats m.attributes)
      ∧ (match ofSession s with | .error .directions => true | _ => false) = true)
    (by decide +kernel)
  have hraw : (Sum.inl crossedDirections : Text ⊕ List UInt8).elim Session.ofText Session.ofBytes
      = .ok s := hs
  have hdecided := ofSession_decided hraw hfit
  have hfirst : ofSession s = .error .directions := by
    split at hfault
    · assumption
    · exact nomatch hfault
  exact ⟨s, hs, hfit, (hdecided.2.1 _).mp hfirst, hdecided⟩

end Bundle

end OfferAnswer
