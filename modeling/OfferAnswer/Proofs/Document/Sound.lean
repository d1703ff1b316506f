/-
OfferAnswer/Proofs/Document/Sound.lean

Sound documents: every field is as its reader leaves it, and every bandwidth is
kept under a spelling of its kind.

What was read is sound, since entering a field adds that field and nothing
else.  A sound session that is short enough to be written is found again.
-/
import OfferAnswer.Proofs.Document.Equality

namespace OfferAnswer

open Text Outcome Document

/-! ### Sections -/

/-- Every field is as its reader leaves it. -/
def TimeSection.Sound (t : TimeSection) : Prop := ∀ f ∈ t.fields, f.WellFormed

/-- Every bandwidth can be written under the spelling that it is kept under. -/
def Bandwidths.Spelled (bs : Bandwidths) : Prop :=
  ∀ e ∈ bs.entries, (Bandwidth.mk e.1 e.2.amount).WellFormed InLine

/-- Every field is as its reader leaves it, and bandwidths are kept under
spellings of their kinds. -/
structure MediaSection.Sound (m : MediaSection) : Prop where
  fields : ∀ f ∈ m.fields, f.WellFormed InLine
  keyed : m.bandwidths.Keyed
  spelled : m.bandwidths.Spelled

theorem MediaSection.Sound.attributes {m : MediaSection} (h : m.Sound) :
    ∀ a ∈ m.attributes, a.WellFormed InLine := fun a ha =>
  h.fields (.attr a) (List.mem_append_right _ (List.mem_map_of_mem ha))

namespace TimeSection

variable {t : TimeSection} {f g : TimeField}

/-- Entering a field adds that field and nothing else. -/
theorem mem_fields_add (h : g ∈ (t.add f).fields) : g = f ∨ g ∈ t.fields := by
  cases f <;> simp only [add, fields, List.mem_cons, List.mem_append, List.map_append,
    List.map_cons, List.map_nil, List.cons_append, Option.map_some, Option.toList_some] at h ⊢ <;>
    grind

theorem Sound.add (ht : t.Sound) (hf : f.WellFormed) : (t.add f).Sound := fun g hg =>
  (mem_fields_add hg).elim (fun h => h ▸ hf) (ht g)

theorem sound_ofActive {a : ActiveTime} (h : (TimeField.active a).WellFormed) :
    (ofActive a).Sound := List.forall_mem_singleton.mpr h

theorem sound_of_ofFields? {fs : List TimeField} (h : ofFields? fs = some t)
    (hfs : ∀ f ∈ fs, f.WellFormed) : t.Sound := by
  unfold ofFields? at h
  split at h
  · next a rest =>
    rw [List.forall_mem_cons] at hfs
    obtain rfl := Option.some.inj h
    exact List.foldlRecOn rest add (sound_ofActive hfs.1) fun _ ht f hf => ht.add (hfs.2 f hf)
  · simp at h

end TimeSection

theorem Bandwidths.Spelled.put {bs : Bandwidths} (h : bs.Spelled) {b : Bandwidth}
    (hb : b.WellFormed InLine) : (bs.put b).Spelled := by
  refine OrderedMap.forall_insert
    (P := fun k (b : Bandwidth) => (Bandwidth.mk k b.amount).WellFormed InLine) h hb ?_
  exact fun j w _ hj =>
    ⟨hj.kind_canonical, hj.kind_ne_nil, hj.colon_not_mem_kind, hj.kind_over, hb.amount⟩

theorem Bandwidths.mem_fields_put {φ : Type} (bs : Bandwidths) (b : Bandwidth) (f : Bandwidth → φ)
    {x : φ} (h : x ∈ (bs.put b).entries.map fun e => f e.2) :
    x = f b ∨ x ∈ bs.entries.map fun e => f e.2 := by
  obtain ⟨e, he, rfl⟩ := List.mem_map.mp h
  rcases OrderedMap.mem_insert he with rfl | he | ⟨-, hv, -⟩
  · exact .inl rfl
  · exact .inr (List.mem_map_of_mem he)
  · exact .inl (congrArg f hv)

namespace MediaSection

variable {m : MediaSection} {f g : MediaField}

theorem mem_fields_add (h : g ∈ (m.add f).fields) : g = f ∨ g ∈ m.fields := by
  cases f with
  | bandwidth b =>
    have hb := @Bandwidths.mem_fields_put _ m.bandwidths b MediaField.bandwidth g
    simp only [add, fields, List.mem_append] at h ⊢
    grind
  | _ =>
    simp only [add, fields, List.mem_cons, List.mem_append, List.map_append,
      List.map_cons, List.map_nil, List.cons_append, Option.map_some, Option.toList_some] at h ⊢
    grind

theorem Sound.add (hm : m.Sound) (hf : f.WellFormed InLine) : (m.add f).Sound := by
  have hfields : ∀ g ∈ (m.add f).fields, g.WellFormed InLine := fun g hg =>
    (mem_fields_add hg).elim (fun h => h ▸ hf) (hm.fields g)
  cases f with
  | bandwidth b => exact ⟨hfields, hm.keyed.put b, hm.spelled.put hf⟩
  | _ => exact ⟨hfields, hm.keyed, hm.spelled⟩

theorem sound_ofMedium {medium : Medium} (h : (MediaField.medium medium).WellFormed InLine) :
    (ofMedium medium).Sound :=
  ⟨List.forall_mem_singleton.mpr h, Bandwidths.keyed_empty, List.forall_mem_nil _⟩

theorem sound_of_ofFields? {fs : List MediaField} (h : ofFields? fs = some m)
    (hfs : ∀ f ∈ fs, f.WellFormed InLine) : m.Sound := by
  unfold ofFields? at h
  split at h
  · next medium rest =>
    rw [List.forall_mem_cons] at hfs
    obtain rfl := Option.some.inj h
    exact List.foldlRecOn rest add (sound_ofMedium hfs.1) fun _ hm f hf => hm.add (hfs.2 f hf)
  · simp at h

end MediaSection

/-! ### Sessions -/

/-- The fields of a session itself and its sections are sound. -/
structure SessionDetails.Sound (s : SessionDetails) : Prop where
  keyed : s.bandwidths.Keyed
  times : ∀ t ∈ s.times, t.Sound
  media : ∀ m ∈ s.media, m.Sound

/-- The session's own fields are as their reader leaves them, and its sections
are sound. -/
structure Draft.Sound (d : Draft) : Prop extends d.toSessionDetails.Sound where
  own : ∀ f ∈ d.ownBefore ++ d.ownAfter, f.WellFormed InLine

namespace Draft

variable {d : Draft} {f g : SessionField}

theorem mem_own_addOwn (h : g ∈ (d.addOwn f).ownBefore ++ (d.addOwn f).ownAfter) :
    g = f ∨ g ∈ d.ownBefore ++ d.ownAfter := by
  cases f with
  | bandwidth b =>
    have hb := @Bandwidths.mem_fields_put _ d.bandwidths b SessionField.bandwidth g
    simp only [addOwn, ownBefore, ownAfter, List.mem_append] at h ⊢
    grind
  | _ =>
    simp only [addOwn, ownBefore, ownAfter, List.mem_append, List.map_append,
      List.map_cons, List.map_nil, Option.map_some, Option.toList_some, List.mem_singleton] at h ⊢
    grind

theorem Sound.addOwn (hd : d.Sound) (hf : f.WellFormed InLine) : (d.addOwn f).Sound := by
  have hown : ∀ g ∈ (d.addOwn f).ownBefore ++ (d.addOwn f).ownAfter, g.WellFormed InLine :=
    fun g hg => (mem_own_addOwn hg).elim (fun h => h ▸ hf) (hd.own g)
  cases f with
  | bandwidth b => exact ⟨⟨hd.keyed.put b, hd.times, hd.media⟩, hown⟩
  | _ => exact ⟨⟨hd.keyed, hd.times, hd.media⟩, hown⟩

theorem forall_mem_updateLast {α : Type} {P : α → Prop} {g : α → α} {xs : List α}
    (h : ∀ x ∈ xs, P x) (hg : ∀ x, P x → P (g x)) : ∀ x ∈ updateLast g xs, P x := by
  induction xs with
  | nil => exact h
  | cons x xs ih =>
    rw [List.forall_mem_cons] at h
    cases xs with
    | nil => exact List.forall_mem_singleton.mpr (hg x h.1)
    | cons y ys => exact List.forall_mem_cons.mpr ⟨h.1, ih h.2⟩

/-- A well-formed field keeps a draft sound. -/
theorem Sound.add (hd : d.Sound) {f : DocumentField} (hf : f.WellFormed InLine) :
    (d.add f).Sound := by
  have happend : ∀ {α : Type} {P : α → Prop} {xs : List α} {x : α},
      (∀ y ∈ xs, P y) → P x → ∀ y ∈ xs ++ [x], P y := fun hxs hx =>
    List.forall_mem_append.mpr ⟨hxs, List.forall_mem_singleton.mpr hx⟩
  -- A first field opens a section, and any other goes to the last one.
  rcases f with f | f | f
  · exact hd.addOwn hf
  · cases f with
    | active a =>
      exact ⟨⟨hd.keyed, happend hd.times (TimeSection.sound_ofActive hf), hd.media⟩, hd.own⟩
    | _ =>
      exact ⟨⟨hd.keyed, forall_mem_updateLast hd.times fun t ht => ht.add hf, hd.media⟩, hd.own⟩
  · cases f with
    | medium medium =>
      exact ⟨⟨hd.keyed, hd.times, happend hd.media (MediaSection.sound_ofMedium hf)⟩, hd.own⟩
    | _ =>
      exact ⟨⟨hd.keyed, hd.times, forall_mem_updateLast hd.media fun m hm => hm.add hf⟩, hd.own⟩

theorem sound_empty : empty.Sound := by
  refine ⟨⟨Bandwidths.keyed_empty, ?_, ?_⟩, ?_⟩ <;> simp [empty, ownBefore, ownAfter]

theorem sound_ofFields {fs : List DocumentField} (h : ∀ f ∈ fs, f.WellFormed InLine) :
    (ofFields fs).Sound :=
  List.foldlRecOn fs add sound_empty fun _ hd f hf => hd.add (h f hf)

/-- The fields of a sound draft are well-formed. -/
theorem Sound.wellFormed (hd : d.Sound) : ∀ f ∈ d.fields, f.WellFormed InLine := by
  have hown := List.forall_mem_append.mp hd.own
  rw [fields]
  simp only [List.forall_mem_append, List.forall_mem_map, List.forall_mem_flatMap]
  exact ⟨⟨⟨hown.1, hd.times⟩, hown.2⟩, fun m hm => (hd.media m hm).fields⟩

theorem draft_of_toSession {s : Session} (h : d.toSession = .ok s) : s.draft = d := by
  unfold toSession at h
  split at h
  · next hv ho hn =>
    split at h
    · simp at h
    · obtain rfl := Except.ok.inj h
      rw [Session.draft, ← hv, ← ho, ← hn]
  · simp at h

end Draft

/-! ### What was read -/

theorem over_of_ofLine {φ : Type} {read : Char → Text → Except Field.Fault φ} {l : Line} {f : φ}
    (hl : Over InLine l.text) (h : Field.ofLine read l.text = .ok f) :
    ∃ c v, Over InLine v ∧ read c v = .ok f := by
  obtain ⟨c, v, hsplit, hf⟩ := ofLine_eq_ok_iff.mp h
  obtain ⟨htext, -⟩ := Field.split?_eq_some_iff.mp hsplit
  rw [htext, Field.line, over_cons, over_cons] at hl
  exact ⟨c, v, hl.2.2, hf⟩

theorem forall₂_of_readSectionLines {φ : Type} {shape : Shape}
    {read : Char → Text → Except Field.Fault φ} {letter : φ → Char}
    (hread : ∀ c v g, read c v = .ok g → letter g = c) {last : Option Nat} {ls : List Line}
    {gs : List φ} (h : readSectionLines shape read last ls = .ok gs) :
    List.Forall₂ (fun l g => Field.ofLine read l.text = .ok g) ls gs := by
  induction ls generalizing last gs with
  | nil =>
    obtain rfl := Except.ok.inj h
    exact .nil
  | cons l ls ih =>
    obtain ⟨g, rest, i, rfl, -, hl, hrest⟩ := (readSectionLines_cons_eq_ok_iff hread).mp h
    exact .cons hl (ih hrest)

variable {t : Text}

/-- A section that was read on its own is made of what its lines were read
as. -/
theorem exists_ofFields_of_readSection {φ σ : Type} {shape : Shape}
    {read : Char → Text → Except Field.Fault φ} {letter : φ → Char}
    (hread : ∀ c v g, read c v = .ok g → letter g = c) {ofFields? : List φ → Option σ} {s : σ}
    {P : φ → Prop} (hP : ∀ c v g, Over InLine v → read c v = .ok g → P g)
    (h : (Line.ofText t).mapError Error.ofLineFault >>= readSection shape read ofFields? = .ok s) :
    ∃ gs, (∀ g ∈ gs, P g) ∧ ofFields? gs = some s := by
  obtain ⟨ls, hls, hs⟩ := bind_eq_ok.mp h
  have hlines := Line.inLine_of_ofText (mapError_eq_ok.mp hls)
  obtain ⟨gs, hgs, hs⟩ := bind_eq_ok.mp hs
  refine ⟨gs, forall_of_forall₂ (forall₂_of_readSectionLines hread hgs) (fun l g hl hg => ?_)
    hlines, ?_⟩
  · obtain ⟨c, v, hv, hg⟩ := over_of_ofLine hl.2 hg
    exact hP c v g hv hg
  · split at hs
    · next s' hs' =>
      obtain rfl := Except.ok.inj hs
      exact hs'
    · simp [throw_ne_ok] at hs

theorem TimeSection.sound_of_ofText {s : TimeSection} (h : ofText t = .ok s) : s.Sound := by
  obtain ⟨gs, hgs, hs⟩ := exists_ofFields_of_readSection
    (fun _ _ _ hg => (TimeField.wellFormed_of_read hg).2)
    (fun _ _ _ _ hg => (TimeField.wellFormed_of_read hg).1) h
  exact sound_of_ofFields? hs hgs

theorem MediaSection.sound_of_ofText {s : MediaSection} (h : ofText t = .ok s) : s.Sound := by
  obtain ⟨gs, hgs, hs⟩ := exists_ofFields_of_readSection
    (fun _ _ _ hg => MediaField.letter_of_read hg)
    (fun _ _ _ hv hg => (MediaField.wellFormed_of_read hv hg).1) h
  exact sound_of_ofFields? hs hgs

namespace Session

variable {s : Session}

/-- A session that was read is sound. -/
theorem sound_of_ofText (h : ofText t = .ok s) : s.draft.Sound := by
  obtain ⟨ls, hls, hs⟩ := bind_eq_ok.mp h
  have hlines := Line.inLine_of_ofText (mapError_eq_ok.mp hls)
  obtain ⟨fs, -, -, hreads, hs⟩ := ofLines_eq_ok_iff.mp hs
  rw [Draft.draft_of_toSession hs]
  have hfields : ∀ f ∈ fs, f.field.WellFormed InLine := by
    refine forall_of_forall₂ hreads (fun l f hl hf => ?_) hlines
    obtain ⟨c, v, hv, hread⟩ := over_of_ofLine hl.2 hf.2
    exact (wellFormed_of_readField hv hread).1
  exact Draft.sound_ofFields (List.forall_mem_map.mpr hfields)

/-- The bytes that stand for a session are those of a text that does. -/
theorem exists_text_of_bytes {bytes : List UInt8}
    (h : ofBytes bytes = .ok s) : ∃ t, ofText t = .ok s := by
  obtain ⟨ls, hls, hs⟩ := bind_eq_ok.mp h
  have hls := mapError_eq_ok.mp hls
  unfold Line.ofBytes at hls
  split at hls
  · next t _ => exact ⟨t, bind_eq_ok.mpr ⟨ls, mapError_eq_ok.mpr hls, hs⟩⟩
  · simp at hls

/-- A session that was read from a text or from bytes is sound. -/
theorem sound_of_ofRaw {raw : Text ⊕ List UInt8} (h : raw.elim ofText ofBytes = .ok s) :
    s.draft.Sound := by
  rcases raw with t | bytes
  · exact sound_of_ofText h
  · obtain ⟨t, ht⟩ := exists_text_of_bytes h
    exact sound_of_ofText ht

/-- A sound session that is short enough to be written is found again. -/
theorem reread_of_sound (hs : s.draft.Sound) (hw : ∀ f ∈ s.draft.fields, f.isWritable = true) :
    ∃ s', ofText s.text = .ok s' ∧ (s' == s) = true ∧ s'.text = s.text := by
  have hm : ∀ m ∈ s.media, m.bandwidths.Keyed := fun m hm => (hs.media m hm).keyed
  exact ⟨s.rekeyed, ofText_text fun f hf => ⟨hs.wellFormed f hf, hw f hf⟩, rekeyed_beq hs.keyed hm,
    text_rekeyed hs.keyed hm⟩

end Session

end OfferAnswer
