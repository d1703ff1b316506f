/-
OfferAnswer/Proofs/Document/Edit.lean

Sessions that were read and edited.

An edit is admissible if it takes out what may be missing, adds what was read,
or moves parts about.  Admissible edits keep a worksheet that of a sound
session; so however a session is edited, it is found again when it is written.
-/
import OfferAnswer.Document.Edit
import OfferAnswer.Proofs.Document.Sound
import OfferAnswer.Proofs.Index

namespace OfferAnswer

open Text Outcome

/-! ### Without a part -/

namespace Sheet

/-- The places of parts that may be missing, and do not repeat. -/
def optionalPlaces : List Char := ['i', 'u', 'e', 'p', 'c', 'k']

variable {place : Char}

theorem forall_optionalPlaces {P : Char → Prop} (hi : P 'i') (hu : P 'u') (he : P 'e')
    (hp : P 'p') (hc : P 'c') (hk : P 'k') (h : place ∈ optionalPlaces) : P place := by
  simp only [optionalPlaces, List.mem_cons, List.not_mem_nil, or_false] at h
  rcases h with rfl | rfl | rfl | rfl | rfl | rfl
  exacts [hi, hu, he, hp, hc, hk]

/-- Taking out a part that may be missing empties its place, and no other. -/
theorem strike_eq (h : place ∈ optionalPlaces) (s : Sheet) {line : Char → Option DocumentField}
    (hself : line place = none) (hne : ∀ c, c ≠ place → s.line c = line c) :
    s.strike place = { s with line } := by
  have hset : s.strike place = s.setLine place none :=
    forall_optionalPlaces (P := fun place => s.strike place = s.setLine place none)
      rfl rfl rfl rfl rfl rfl h
  have hline : (fun c => if c = place then none else s.line c) = line := by
    funext c
    by_cases hc : c = place
    · rw [if_pos hc, hc, hself]
    · rw [if_neg hc, hne c hc]
  rw [hset, setLine, hline]

end Sheet

namespace Session

variable {s : Session} {place : Char}

/-- The session without the part at a place. -/
def without (s : Session) (place : Char) : Session :=
  { s with
    information := if place = 'i' then none else s.information
    uri := if place = 'u' then none else s.uri
    email := if place = 'e' then none else s.email
    phone := if place = 'p' then none else s.phone
    connection := if place = 'c' then none else s.connection
    key := if place = 'k' then none else s.key }

theorem line_without_self (h : place ∈ Sheet.optionalPlaces) :
    (s.without place).line place = none :=
  Sheet.forall_optionalPlaces (P := fun place => (s.without place).line place = none)
    rfl rfl rfl rfl rfl rfl h

theorem line_without_ne {c : Char} (hc : c ≠ place) : (s.without place).line c = s.line c := by
  unfold line without
  split <;> simp_all [eq_comm]

theorem strike_worksheet (h : place ∈ Sheet.optionalPlaces) :
    s.worksheet.toSheet.strike place = (s.without place).worksheet.toSheet := by
  refine Sheet.strike_eq h _ ?_ fun c hc => ?_
  · exact congrArg (Option.map DocumentField.session) (line_without_self h)
  · exact congrArg (Option.map DocumentField.session) (line_without_ne hc).symm

theorem sound_without (hs : s.draft.Sound) : (s.without place).draft.Sound := by
  refine ⟨⟨hs.keyed, hs.times, hs.media⟩, fun f hf => hs.own f ?_⟩
  simp only [draft, without, Draft.ownBefore, Draft.ownAfter, List.mem_append] at hf ⊢
  grind

end Session

namespace MediaSection

variable {m : MediaSection} {place : Char}

/-- The medium without the part at a place. -/
def without (m : MediaSection) (place : Char) : MediaSection :=
  { m with
    title := if place = 'i' then none else m.title
    connection := if place = 'c' then none else m.connection
    key := if place = 'k' then none else m.key }

theorem line_without_self (h : place ∈ Sheet.optionalPlaces) :
    (m.without place).line place = none :=
  Sheet.forall_optionalPlaces (P := fun place => (m.without place).line place = none)
    rfl rfl rfl rfl rfl rfl h

theorem line_without_ne {c : Char} (hc : c ≠ place) : (m.without place).line c = m.line c := by
  unfold line without
  split <;> simp_all [eq_comm]

theorem strike_sheet (h : place ∈ Sheet.optionalPlaces) :
    m.sheet.strike place = (m.without place).sheet := by
  refine Sheet.strike_eq h _ ?_ fun c hc => ?_
  · exact congrArg (Option.map DocumentField.media) (line_without_self h)
  · exact congrArg (Option.map DocumentField.media) (line_without_ne hc).symm

theorem sound_without (hm : m.Sound) : (m.without place).Sound := by
  refine ⟨fun f hf => hm.fields f ?_, hm.keyed, hm.spelled⟩
  simp only [without, fields, List.mem_append, List.mem_cons] at hf ⊢
  grind

end MediaSection

theorem TimeSection.Sound.withoutZone {t : TimeSection} (ht : t.Sound) :
    Sound { t with zone := none } := by
  refine fun f hf => ht f ?_
  simp only [fields, List.mem_append, List.mem_cons] at hf ⊢
  grind

/-! ### Edits of a sheet -/

namespace Edit

/-- Carried out on the sheet of a sound session or medium, a change of sheets
leads to another. -/
structure Keeps (f : Sheet → Except Fault Sheet) : Prop where
  session : ∀ (s : Session) {sheet}, s.draft.Sound → f s.worksheet.toSheet = .ok sheet →
    ∃ s' : Session, s'.draft.Sound ∧ { s.worksheet with toSheet := sheet } = s'.worksheet
  media : ∀ (m : MediaSection) {sheet}, m.Sound → f m.sheet = .ok sheet →
    ∃ m' : MediaSection, m'.Sound ∧ sheet = m'.sheet

theorem keeps_strike {place : Char} (h : place ∈ Sheet.optionalPlaces) :
    Keeps fun s => .ok (s.strike place) where
  session s sheet hs heq := by
    obtain rfl := Except.ok.inj heq
    refine ⟨s.without place, s.sound_without hs, ?_⟩
    rw [Session.strike_worksheet h]
    rfl
  media m sheet hm heq := by
    obtain rfl := Except.ok.inj heq
    exact ⟨m.without place, m.sound_without hm, MediaSection.strike_sheet h⟩

theorem mem_fields_erase {φ : Type} {bs : Bandwidths} {kind : Token BandwidthKind}
    {f : Bandwidth → φ} {x : φ} (h : x ∈ (bs.erase kind).entries.map fun e => f e.2) :
    x ∈ bs.entries.map fun e => f e.2 :=
  (List.filter_sublist.map _).subset h

theorem keeps_dropBandwidth (use : Use) (kind : Token BandwidthKind) :
    Keeps (inBandwidths use (·.erase kind)) where
  session s sheet hs heq := by
    obtain rfl := Except.ok.inj heq
    refine ⟨{ s with bandwidths := s.bandwidths.erase kind }, ?_, rfl⟩
    refine ⟨⟨hs.keyed.erase kind, hs.times, hs.media⟩, fun f hf => hs.own f ?_⟩
    have herase := @mem_fields_erase _ s.bandwidths kind SessionField.bandwidth f
    simp only [Session.draft, Draft.ownBefore, Draft.ownAfter, List.mem_append] at hf ⊢
    grind
  media m sheet hm heq := by
    obtain rfl := Except.ok.inj heq
    refine ⟨{ m with bandwidths := m.bandwidths.erase kind }, ⟨fun f hf => hm.fields f ?_,
      hm.keyed.erase kind, fun e he => hm.spelled e (List.mem_of_mem_filter he)⟩, rfl⟩
    have herase := @mem_fields_erase _ m.bandwidths kind MediaField.bandwidth f
    simp only [MediaSection.fields, List.mem_append, List.mem_cons] at hf ⊢
    grind

/-- Attributes may be changed to such as are well-formed. -/
theorem keeps_attributes (use : Use) {f : AttributeList → Except Fault AttributeList}
    (hf : ∀ as as', (∀ a ∈ as, a.WellFormed InLine) → f as = .ok as' →
      ∀ a ∈ as', a.WellFormed InLine) :
    Keeps fun s => do
      let as ← part use s.attributes
      return { s with attributes := some (← f as) } where
  session s sheet hs heq := by
    obtain ⟨as, has, h⟩ := bind_eq_ok.mp heq
    obtain rfl := Except.ok.inj has
    obtain ⟨as', has', h⟩ := bind_eq_ok.mp h
    obtain rfl := pure_eq_ok.mp h
    refine ⟨{ s with attributes := as' }, ⟨⟨hs.keyed, hs.times, hs.media⟩, ?_⟩, rfl⟩
    have hown := hs.own
    simp only [Session.draft, Draft.ownBefore, Draft.ownAfter, List.forall_mem_append,
      List.forall_mem_map] at hown ⊢
    exact ⟨hown.1, hown.2.1, hf _ as' hown.2.2 has'⟩
  media m sheet hm heq := by
    obtain ⟨as, has, h⟩ := bind_eq_ok.mp heq
    obtain rfl := Except.ok.inj has
    obtain ⟨as', has', h⟩ := bind_eq_ok.mp h
    obtain rfl := pure_eq_ok.mp h
    refine ⟨{ m with attributes := as' }, ⟨?_, hm.keyed, hm.spelled⟩, rfl⟩
    have hfields := hm.fields
    simp only [MediaSection.fields, List.forall_mem_append, List.forall_mem_map] at hfields ⊢
    exact ⟨hfields.1, hf _ as' hfields.2 has'⟩

theorem keeps_append {name : Text} {value : Option Text}
    (ha : ∀ a, Attribute.ofNameValue name value = .ok a → a.WellFormed InLine) (use : Use) :
    Keeps fun s => do
      let as ← part use s.attributes
      let a ← (Attribute.ofNameValue name value).mapError .attr
      return { s with attributes := some (as ++ [a]) } := by
  have h := keeps_attributes use
    (f := fun as => do return as ++ [← (Attribute.ofNameValue name value).mapError .attr]) <| by
    intro as as' has h
    obtain ⟨a, hread, h⟩ := bind_eq_ok.mp h
    obtain rfl := pure_eq_ok.mp h
    refine List.forall_mem_append.mpr ⟨has, List.forall_mem_singleton.mpr ?_⟩
    exact ha a (mapError_eq_ok.mp hread)
  simpa using h

theorem keeps_remove (name : Text) (use : Use) :
    Keeps fun s => do
      let as ← part use s.attributes
      return { s with attributes := some (as.without name) } :=
  keeps_attributes use (f := fun as => .ok (as.without name)) fun as as' has h => by
    obtain rfl := Except.ok.inj h
    exact fun a ha => has a (List.mem_of_mem_filter ha)

end Edit

/-! ### Whole worksheets -/

namespace Worksheet

/-- The sheet of a sound medium. -/
def IsMedium (sheet : Sheet) : Prop := ∃ m : MediaSection, m.Sound ∧ sheet = m.sheet

theorem exists_media {sheets : List Sheet} (h : ∀ sheet ∈ sheets, IsMedium sheet) :
    ∃ ms : List MediaSection, (∀ m ∈ ms, m.Sound) ∧ sheets = ms.map MediaSection.sheet := by
  induction sheets with
  | nil => exact ⟨[], by simp, rfl⟩
  | cons sheet sheets ih =>
    obtain ⟨⟨m, hm, rfl⟩, hsheets⟩ := List.forall_mem_cons.mp h
    obtain ⟨ms, hms, rfl⟩ := ih hsheets
    exact ⟨m :: ms, List.forall_mem_cons.mpr ⟨hm, hms⟩, rfl⟩

/-- The worksheet of a sound session. -/
def Sound (w : Worksheet) : Prop := ∃ s : Session, s.draft.Sound ∧ w = s.worksheet

variable {w w' : Worksheet}

/-- The media of a sound session may be changed to others that are sound. -/
theorem Sound.withMedia (hw : w.Sound) {sheets : List Sheet}
    (h : ∀ sheet ∈ sheets, IsMedium sheet) : Sound { w with media := some sheets } := by
  obtain ⟨s, hs, rfl⟩ := hw
  obtain ⟨ms, hms, rfl⟩ := exists_media h
  exact ⟨{ s with media := ms }, ⟨⟨hs.keyed, hs.times, hms⟩, hs.own⟩, rfl⟩

theorem Sound.withTimes (hw : w.Sound) {times : List TimeSection} (hne : times ≠ [])
    (h : ∀ t ∈ times, t.Sound) : Sound { w with times := some times } := by
  obtain ⟨s, hs, rfl⟩ := hw
  exact ⟨{ s with times, times_ne_nil := hne }, ⟨⟨hs.keyed, h, hs.media⟩, hs.own⟩, rfl⟩

theorem Sound.media (hw : w.Sound) : ∃ sheets, w.media = some sheets ∧
    ∀ sheet ∈ sheets, IsMedium sheet := by
  obtain ⟨s, hs, rfl⟩ := hw
  exact ⟨_, rfl, List.forall_mem_map.mpr fun m hm => ⟨m, hs.media m hm, rfl⟩⟩

theorem Sound.times (hw : w.Sound) : ∃ times, w.times = some times ∧ times ≠ [] ∧
    ∀ t ∈ times, t.Sound := by
  obtain ⟨s, hs, rfl⟩ := hw
  exact ⟨_, rfl, s.times_ne_nil, hs.times⟩

end Worksheet

namespace Edit

variable {w w' : Worksheet}

theorem atIndex_eq_ok {α : Type} {o : Option α} {a : α} (h : atIndex o = .ok a) : o = some a := by
  cases o with
  | none => simp [atIndex] at h
  | some b => exact congrArg some (Except.ok.inj h)

theorem part_eq_ok {α : Type} {use : Use} {o : Option α} {a : α} (h : part use o = .ok a) :
    o = some a := by
  cases o with
  | none => simp [part] at h
  | some b => exact congrArg some (Except.ok.inj h)

theorem part_some {α : Type} {use : Use} {a : α} : part use (some a) = .ok a := rfl

theorem bind_part_eq_ok {α β : Type} {use : Use} {o : Option α} {a : α} {f : α → Except Fault β}
    {b : β} (ho : o = some a) : (part use o >>= f) = .ok b ↔ f a = .ok b := by
  rw [ho, part_some, ok_bind]

theorem sound_of_inSheet {t : Target} {f : Sheet → Except Fault Sheet} (hf : Keeps f)
    (hw : w.Sound) (h : inSheet w t f = .ok w') : w'.Sound := by
  obtain ⟨sheet, hsheet, h⟩ := bind_eq_ok.mp h
  obtain ⟨sheet', hsheet', h⟩ := bind_eq_ok.mp h
  obtain rfl := pure_eq_ok.mp h
  cases t with
  | session =>
    obtain ⟨s, hs, rfl⟩ := hw
    obtain rfl := Except.ok.inj hsheet
    exact hf.session s hs hsheet'
  | media i =>
    obtain ⟨sheets, hmedia, hsheets⟩ := hw.media
    have hget : atIndex (Index.get? sheets i) = .ok sheet := by
      rw [← hsheet]
      simp [sheetAt, hmedia, part_some]
    obtain ⟨ys, hys⟩ := Index.exists_modify?_of_get? (atIndex_eq_ok hget) fun _ => sheet'
    obtain ⟨m, hm, rfl⟩ := hsheets sheet (Index.mem_of_get? (atIndex_eq_ok hget))
    obtain ⟨m', hm', rfl⟩ := hf.media m hm hsheet'
    -- The changed sheet is put back where it was found.
    show Worksheet.Sound { w with media := w.media.bind _ }
    rw [hmedia, Option.bind_some, hys]
    refine hw.withMedia fun y hy => ?_
    rcases Index.mem_of_modify? hys hy with hy | ⟨_, -, rfl⟩
    · exact hsheets y hy
    · exact ⟨m', hm', rfl⟩

/-- Edits that take out what may be missing, add what was read, or move parts
about.  The name of an attribute that is added has no colon, and its line no
line feed. -/
def IsAdmissible : Edit → Prop
  | setLine .. | putBandwidth .. => False
  | strike _ place => place ∈ Sheet.optionalPlaces
  | append _ name value => ':' ∉ name ∧ '\n' ∉ name ∧ ∀ v ∈ value, '\n' ∉ v
  | addMedia m => ∃ t, MediaSection.ofText t = .ok m
  | addTime s => ∃ t, TimeSection.ofText t = .ok s
  | dropBandwidth .. | remove .. | moveMedia .. | dropMedia .. | keepTimes .. | strikeZone .. =>
    True

/-! ### One edit -/

section

variable (hw : w.Sound)
include hw

theorem sound_strike {t : Target} {place : Char} (hplace : place ∈ Sheet.optionalPlaces)
    (h : apply w (strike t place) = .ok w') : w'.Sound := by
  have hkeeps : Keeps fun s => .ok (s.strike place) := keeps_strike hplace
  cases t with
  | session =>
    -- Neither the times nor the media are at an optional place.
    have hstrike : w.strike place = { w with toSheet := w.toSheet.strike place } :=
      Sheet.forall_optionalPlaces
        (P := fun place => w.strike place = { w with toSheet := w.toSheet.strike place })
        rfl rfl rfl rfl rfl rfl hplace
    refine sound_of_inSheet (t := .session) hkeeps hw ?_
    rw [← h, apply, hstrike]
    rfl
  | media i => exact sound_of_inSheet hkeeps hw h

theorem sound_append {t : Target} {name : Text} {value : Option Text}
    (ha : ∀ a, Attribute.ofNameValue name value = .ok a → a.WellFormed InLine)
    (h : apply w (append t name value) = .ok w') : w'.Sound :=
  sound_of_inSheet (keeps_append ha _) hw h

theorem sound_moveMedia {i j : Int} (h : apply w (moveMedia i j) = .ok w') : w'.Sound := by
  obtain ⟨sheets, hmedia, hsheets⟩ := hw.media
  obtain ⟨⟨sheet, rest⟩, htake, h⟩ := bind_eq_ok.mp ((bind_part_eq_ok hmedia).mp h)
  obtain rfl := pure_eq_ok.mp h
  obtain ⟨hsheet, hrest⟩ := Index.mem_of_take? (atIndex_eq_ok htake)
  refine hw.withMedia fun y hy => hsheets y ?_
  rcases Index.mem_of_mem_insert hy with rfl | hy
  · exact hsheet
  · exact hrest hy

theorem sound_dropMedia {i : Int} (h : apply w (dropMedia i) = .ok w') : w'.Sound := by
  obtain ⟨sheets, hmedia, hsheets⟩ := hw.media
  obtain ⟨⟨sheet, rest⟩, htake, h⟩ := bind_eq_ok.mp ((bind_part_eq_ok hmedia).mp h)
  obtain rfl := pure_eq_ok.mp h
  obtain ⟨-, hrest⟩ := Index.mem_of_take? (atIndex_eq_ok htake)
  exact hw.withMedia fun y hy => hsheets y (hrest hy)

theorem sound_addMedia {m : MediaSection} (hm : m.Sound) (h : apply w (addMedia m) = .ok w') :
    w'.Sound := by
  obtain ⟨sheets, hmedia, hsheets⟩ := hw.media
  have h := (bind_part_eq_ok hmedia).mp h
  obtain rfl := Except.ok.inj h
  refine hw.withMedia (List.forall_mem_append.mpr ⟨hsheets, List.forall_mem_singleton.mpr ?_⟩)
  exact ⟨m, hm, rfl⟩

theorem sound_addTime {t : TimeSection} (ht : t.Sound) (h : apply w (addTime t) = .ok w') :
    w'.Sound := by
  obtain ⟨times, htimes, -, hall⟩ := hw.times
  have h := (bind_part_eq_ok htimes).mp h
  obtain rfl := Except.ok.inj h
  refine hw.withTimes (by simp) ?_
  exact List.forall_mem_append.mpr ⟨hall, List.forall_mem_singleton.mpr ht⟩

theorem sound_keepTimes {is : List Int} (h : apply w (keepTimes is) = .ok w') : w'.Sound := by
  obtain ⟨times, htimes, -, hall⟩ := hw.times
  cases is with
  | nil => exact nomatch h
  | cons i is =>
    obtain ⟨kept, hkept, h⟩ := bind_eq_ok.mp ((bind_part_eq_ok htimes).mp h)
    obtain rfl := pure_eq_ok.mp h
    obtain ⟨hsub, hlength⟩ := Index.mem_of_mapM_get? (atIndex_eq_ok hkept)
    refine hw.withTimes ?_ fun t ht => hall t (hsub ht)
    -- As many times are kept as there are indexes.
    rintro rfl
    simp at hlength

theorem sound_strikeZone {i : Int} (h : apply w (strikeZone i) = .ok w') : w'.Sound := by
  obtain ⟨times, htimes, hne, hall⟩ := hw.times
  obtain ⟨ts, hts, h⟩ := bind_eq_ok.mp ((bind_part_eq_ok htimes).mp h)
  obtain rfl := pure_eq_ok.mp h
  have hts := atIndex_eq_ok hts
  refine hw.withTimes (Index.ne_nil_of_modify? hts hne) fun t ht => ?_
  rcases Index.mem_of_modify? hts ht with ht | ⟨t', ht', rfl⟩
  · exact hall t ht
  · exact (hall t' ht').withoutZone

/-- An admissible edit leads from sound sessions to sound sessions. -/
theorem sound_apply {e : Edit} (he : e.IsAdmissible) (h : apply w e = .ok w') : w'.Sound := by
  cases e with
  | setLine => exact he.elim
  | putBandwidth => exact he.elim
  | strike t place => exact sound_strike hw he h
  | dropBandwidth t kind => exact sound_of_inSheet (keeps_dropBandwidth _ kind) hw h
  | append t name value =>
    obtain ⟨hcolon, hname, hvalue⟩ := he
    exact sound_append hw (fun a ha => Attribute.wellFormed_of_ofNameValue
      (fun _ _ => ⟨hcolon, over_inLine.mpr hname⟩) (fun v hv => over_inLine.mpr (hvalue v hv)) ha) h
  | remove t name => exact sound_of_inSheet (keeps_remove name _) hw h
  | moveMedia i j => exact sound_moveMedia hw h
  | dropMedia i => exact sound_dropMedia hw h
  | addMedia m =>
    obtain ⟨t, ht⟩ := he
    exact sound_addMedia hw (MediaSection.sound_of_ofText ht) h
  | addTime s =>
    obtain ⟨t, ht⟩ := he
    exact sound_addTime hw (TimeSection.sound_of_ofText ht) h
  | keepTimes is => exact sound_keepTimes hw h
  | strikeZone i => exact sound_strikeZone hw h

end

/-- Admissible edits, one after the other. -/
theorem sound_foldlM (hw : w.Sound) {es : List Edit} (hes : ∀ e ∈ es, e.IsAdmissible)
    (h : es.foldlM apply w = .ok w') : w'.Sound := by
  induction es generalizing w with
  | nil =>
    obtain rfl := pure_eq_ok.mp h
    exact hw
  | cons e es ih =>
    rw [List.forall_mem_cons] at hes
    obtain ⟨w₁, hw₁, h⟩ := bind_eq_ok.mp h
    exact ih (sound_apply hw hes.1 hw₁) hes.2 h

end Edit

/-! ### Reading again -/

/-- A sound worksheet that is short enough to be written is read from its text
again: as an equal session, with the same text. -/
theorem Worksheet.Sound.reread {w : Worksheet} (hw : w.Sound) (hwrite : w.isWritable = true) :
    ∃ s₁ s₂ : Session, w = s₁.worksheet ∧ Session.ofText w.text = .ok s₂ ∧ (s₂ == s₁) = true
      ∧ s₂.text = w.text := by
  obtain ⟨s₁, hs₁, rfl⟩ := hw
  rw [isWritable, s₁.fields_worksheet, List.all_eq_true] at hwrite
  obtain ⟨s₂, hs₂, hbeq, htext⟩ := Session.reread_of_sound hs₁ hwrite
  rw [s₁.text_worksheet]
  exact ⟨s₁, s₂, rfl, hs₂, hbeq, htext⟩

/-- A session that was read and edited, and is short enough to be written, is
read from its text again: as an equal session, with the same text. -/
theorem Session.reread_of_edits {t : Text} {s : Session} {es : List Edit} {w : Worksheet}
    (hs : Session.ofText t = .ok s) (hes : ∀ e ∈ es, e.IsAdmissible)
    (hw : es.foldlM Edit.apply s.worksheet = .ok w) (hwrite : w.isWritable = true) :
    ∃ s₁ s₂ : Session, w = s₁.worksheet ∧ Session.ofText w.text = .ok s₂ ∧ (s₂ == s₁) = true
      ∧ s₂.text = w.text :=
  (Edit.sound_foldlM ⟨s, Session.sound_of_ofText hs, rfl⟩ hes hw).reread hwrite

/-- A session with a zone and a titled medium. -/
def Session.sample : Text :=
  "v=0\r\no=- 0 0 IN IP4 x\r\ns=-\r\nt=1 2\r\nz=1 2\r\n".toList
    ++ "m=audio 9 RTP/AVP 0\r\ni=x\r\na=mid:a\r\n".toList

/-- Edits that take out the zone and the title, and change attributes. -/
def Edit.sample : List Edit :=
  [strikeZone 0, strike (.media 0) 'i', append (.media 0) "a".toList (some "b".toList),
    remove (.media 0) "mid".toList, moveMedia 0 0]

theorem Session.reread_of_edits_sample : ∃ (s : Session) (w : Worksheet),
    Session.ofText Session.sample = .ok s ∧ Edit.sample.foldlM Edit.apply s.worksheet = .ok w
    ∧ ∃ s₁ s₂ : Session, w = s₁.worksheet ∧ Session.ofText w.text = .ok s₂
      ∧ (s₂ == s₁) = true ∧ s₂.text = w.text := by
  have hes : ∀ e ∈ Edit.sample, e.IsAdmissible := by
    simp [Edit.sample, Edit.IsAdmissible, Sheet.optionalPlaces]
  exact ⟨_, _, rfl, rfl, Session.reread_of_edits (t := Session.sample) rfl hes rfl rfl⟩

end OfferAnswer
