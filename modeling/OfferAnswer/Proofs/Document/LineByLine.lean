/-
OfferAnswer/Proofs/Document/LineByLine.lean

What reading a session does to its lines.

The invariant (`Draft.At`) says where reading stands in the draft that it has
built up: nothing has been filled in behind the slot of the last line.  A step
keeps it and enters one entry (`Draft.At.add`), and so a run enters the entries
of all lines, one after the other.  The main statement
(`Session.entries_of_ofText`) says what that comes to for the text that is
written.
-/
import OfferAnswer.Proofs.Document.Entries

namespace OfferAnswer

open Outcome Document

namespace Draft

variable {d : Draft} {f : DocumentField} {p p' : Position} {before : List DocumentField}

/-! ### Where reading stands -/

/-- Every bandwidth is kept under some spelling of its kind. -/
def Keyed (d : Draft) : Prop := d.bandwidths.Keyed ∧ ∀ m ∈ d.media, m.bandwidths.Keyed

theorem Keyed.add (h : d.Keyed) (f : DocumentField) : (d.add f).Keyed := by
  rcases f with f | f | f
  · cases f with
    | bandwidth b => exact ⟨h.1.put b, h.2⟩
    | _ => exact h
  · cases f <;> exact h
  · have hadd : ∀ m : MediaSection, m.bandwidths.Keyed → (m.add f).bandwidths.Keyed := by
      intro m hm
      cases f with
      | bandwidth b => exact hm.put b
      | _ => exact hm
    cases f with
    | medium medium =>
      refine ⟨h.1, List.forall_mem_append.mpr ⟨h.2, ?_⟩⟩
      exact List.forall_mem_singleton.mpr Bandwidths.keyed_empty
    | _ => exact ⟨h.1, forall_mem_updateLast h.2 hadd⟩

/-- Reading stands at a position of a draft: nothing has been filled in behind
the slots of the position, in the session and in its last section. -/
structure At (d : Draft) (p : Position) : Prop where
  keyed : d.Keyed
  outer : EmptyFrom d.parts (filled p.slot)
  time : ∀ last, p.inner = some (.time, last) →
    ∃ ts t, d.times = ts ++ [t] ∧ EmptyFrom t.parts (last + 1)
  media : ∀ last, p.inner = some (.media, last) →
    ∃ ms m, d.media = ms ++ [m] ∧ EmptyFrom m.parts (last + 1)

theorem at_start : empty.At .start where
  keyed := ⟨Bandwidths.keyed_empty, List.forall_mem_nil _⟩
  outer := by simp [EmptyFrom, filled, Position.start, parts, empty, OrderedMap.entries_empty]
  time := by simp [Position.start]
  media := by simp [Position.start]

/-! ### Times and media that have begun -/

theorem countP_timeFields (t : TimeSection) :
    (t.fields.map DocumentField.time).countP DocumentField.opensTime = 1 := by
  obtain ⟨rest, hrest, hne⟩ := t.exists_fields_eq_cons
  have hzero : (rest.map DocumentField.time).countP DocumentField.opensTime = 0 := by
    rw [List.countP_eq_zero, List.forall_mem_map]
    intro f hf
    cases f with
    | active a => exact absurd rfl (hne _ hf a)
    | _ => exact Bool.false_ne_true
  rw [hrest, List.map_cons, List.countP_cons_of_pos rfl, hzero]

theorem countP_mediaFields (m : MediaSection) :
    (m.fields.map DocumentField.media).countP DocumentField.opensMedia = 1 := by
  obtain ⟨rest, hrest, hne⟩ := m.exists_fields_eq_cons
  have hzero : (rest.map DocumentField.media).countP DocumentField.opensMedia = 0 := by
    rw [List.countP_eq_zero, List.forall_mem_map]
    intro f hf
    cases f with
    | medium medium => exact absurd rfl (hne _ hf medium)
    | _ => exact Bool.false_ne_true
  rw [hrest, List.map_cons, List.countP_cons_of_pos rfl, hzero]

/-- As many times and media begin as there are. -/
theorem countP_fields (d : Draft) : d.fields.countP DocumentField.opensTime = d.times.length
    ∧ d.fields.countP DocumentField.opensMedia = d.media.length := by
  have htimes : (d.times.map fun t =>
      (t.fields.map DocumentField.time).countP DocumentField.opensTime).sum = d.times.length := by
    simp only [countP_timeFields]
    simp
  have hmedia : (d.media.map fun m =>
      (m.fields.map DocumentField.media).countP DocumentField.opensMedia).sum
        = d.media.length := by
    simp only [countP_mediaFields]
    simp
  have hzero : ∀ p : DocumentField → Bool, ∀ {φ : Type} (mk : φ → DocumentField) (fs : List φ),
      (∀ f, p (mk f) = false) → (fs.map mk).countP p = 0 := fun p _ mk fs h => by
    simp [List.countP_eq_zero, h]
  constructor
  · simp only [fields, List.countP_append, List.countP_flatMap, Function.comp_def, htimes,
      hzero DocumentField.opensTime .session _ fun _ => rfl,
      hzero DocumentField.opensTime .media _ fun _ => rfl]
    simp
  · simp only [fields, List.countP_append, List.countP_flatMap, Function.comp_def, hmedia,
      hzero DocumentField.opensMedia .session _ fun _ => rfl,
      hzero DocumentField.opensMedia .time _ fun _ => rfl]
    simp

/-- A field that is entered begins what it begins, and nothing else does. -/
theorem length_add (d : Draft) (f : DocumentField) :
    (d.add f).times.length = d.times.length + [f].countP DocumentField.opensTime
      ∧ (d.add f).media.length = d.media.length + [f].countP DocumentField.opensMedia := by
  have hlength : ∀ {α : Type} (g : α → α) (xs : List α), (updateLast g xs).length = xs.length := by
    intro α g xs
    induction xs with
    | nil => rfl
    | cons x xs ih =>
      cases xs with
      | nil => rfl
      | cons y ys => exact congrArg (· + 1) ih
  rcases f with f | f | f <;> cases f <;>
    simp [add, addOwn, DocumentField.opensTime, DocumentField.opensMedia, hlength]

/-! ### One line -/

/-- The entry of a field that comes after the fields of a draft. -/
def nextEntry (d : Draft) (f : DocumentField) : Entry := ⟨f.home (d.fields ++ [f]), f⟩

/-- A line that the session admits. -/
theorem At.add_own (hd : d.At p) (h : p.nextInSession f.letter = .ok (p', f.owner)) :
    (d.add f).At p'
      ∧ entries (d.add f).fields = enter Entry.alike (entries d.fields) (d.nextEntry f) := by
  obtain ⟨i, hplace, rfl, howner⟩ := Position.nextInSession_eq_ok_iff.mp h
  -- The line is the session's own, or begins a section.
  have hf : isOwnLine f = true := by
    rw [Position.getD_opened] at howner
    rcases f with f | f | f
    · rfl
    · cases f <;> first | rfl | simp [DocumentField.owner, DocumentField.letter,
        TimeField.letter] at howner
    · cases f <;> first | rfl | simp [DocumentField.owner, DocumentField.letter,
        MediaField.letter] at howner
  obtain ⟨hfields, hempty⟩ := fields_add_own hd.keyed.1 hf hd.outer hplace
  refine ⟨⟨hd.keyed.add f, hempty, fun last hlast => ?_, fun last hlast => ?_⟩,
    by rw [hfields]; exact entries_enter_ownAlike hf⟩
  · obtain ⟨o, ho, he⟩ := Option.map_eq_some_iff.mp hlast
    obtain ⟨rfl, rfl⟩ := Prod.mk.inj he
    rw [ho] at howner
    rcases f with f | f | f
    · simp [DocumentField.owner] at howner
    · cases f with
      | active a =>
        exact ⟨d.times, .ofActive a, rfl,
          by simp [EmptyFrom, TimeSection.parts, TimeSection.ofActive]⟩
      | _ => simp [isOwnLine] at hf
    · simp [DocumentField.owner] at howner
  · obtain ⟨o, ho, he⟩ := Option.map_eq_some_iff.mp hlast
    obtain ⟨rfl, rfl⟩ := Prod.mk.inj he
    rw [ho] at howner
    rcases f with f | f | f
    · simp [DocumentField.owner] at howner
    · simp [DocumentField.owner] at howner
    · cases f with
      | medium medium =>
        exact ⟨d.media, .ofMedium medium, rfl,
          by simp [EmptyFrom, MediaSection.parts, MediaSection.ofMedium]⟩
      | _ => simp [isOwnLine] at hf

/-- While a time is open, its fields are the last ones. -/
theorem fields_eq_of_times {ts : List TimeSection} {t : TimeSection} (hempty : EmptyFrom d.parts 10)
    (hts : d.times = ts ++ [t]) :
    d.fields = (d.ownBefore.map .session ++ ts.flatMap fun t => t.fields.map .time)
      ++ t.fields.map .time := by
  obtain ⟨hkey, hattributes, hmedia⟩ : d.key = none ∧ d.attributes = []
      ∧ d.media.flatMap (fun m => m.fields.map DocumentField.media) = [] := by
    simpa [EmptyFrom, parts] using hempty
  rw [fields, hmedia, ownAfter, hkey, hattributes, hts]
  simp

/-- A line of the open time. -/
theorem At.add_time {last i : Nat} {f : TimeField} (hd : d.At ⟨some 9, some (.time, last)⟩)
    (hplace : (Position.shapeOf .time).place (some last) f.letter = .slot i) :
    (d.add (.time f)).At ⟨some 9, some (.time, i)⟩
      ∧ entries (d.add (.time f)).fields
        = enter Entry.alike (entries d.fields) (d.nextEntry (.time f)) := by
  obtain ⟨ts, t, hts, hempty⟩ := hd.time last rfl
  obtain ⟨hfields, hempty'⟩ := TimeSection.fields_add hempty hplace
  have hne : ∀ a, f ≠ .active a := by
    rintro a rfl
    exact absurd (Position.mem_drop_of_place hplace) (show 't' ∉ ['r', 'z'] by decide)
  have hadd : d.add (.time f) = { d with times := ts ++ [t.add f] } := by
    cases f with
    | active a => exact absurd rfl (hne a)
    | _ => simp [add, hts]
  have houter : EmptyFrom (d.add (.time f)).parts 10 := by
    rw [hadd]
    exact hd.outer
  have hlast : (d.add (.time f)).fields = d.fields ++ [.time f] := by
    rw [fields_eq_of_times houter (by rw [hadd]), fields_eq_of_times hd.outer hts, hfields, hadd]
    simp [ownBefore]
  refine ⟨⟨hd.keyed.add _, houter, ?_, by simp⟩, ?_⟩
  · rintro last ⟨⟩
    exact ⟨ts, t.add f, by rw [hadd], hempty'⟩
  · rw [hlast, entries_concat, enter_of_not_alike fun e _ => (Entry.not_alike rfl e).2]
    rfl

/-- The fields of a draft in front of its media. -/
def beforeMedia (d : Draft) : List DocumentField :=
  d.ownBefore.map .session ++ d.times.flatMap (fun t => t.fields.map .time)
    ++ d.ownAfter.map .session

/-- The fields of the last medium are the last ones. -/
theorem fields_eq_of_media {ms : List MediaSection} {m : MediaSection} (hms : d.media = ms ++ [m]) :
    d.fields = (d.beforeMedia ++ ms.flatMap fun m => m.fields.map .media)
      ++ m.fields.map .media := by
  rw [fields, hms, List.flatMap_append, ← List.append_assoc, List.flatMap_singleton]
  rfl

/-- A line of the open medium. -/
theorem At.add_media {last i : Nat} {f : MediaField}
    (hd : d.At ⟨some 12, some (.media, last)⟩)
    (hplace : (Position.shapeOf .media).place (some last) f.letter = .slot i) :
    (d.add (.media f)).At ⟨some 12, some (.media, i)⟩
      ∧ entries (d.add (.media f)).fields
        = enter Entry.alike (entries d.fields) (d.nextEntry (.media f)) := by
  obtain ⟨ms, m, hms, hempty⟩ := hd.media last rfl
  obtain ⟨hfields, hempty'⟩ := MediaSection.fields_add (hd.keyed.2 m (by simp [hms])) hempty hplace
  have hne : ∀ medium, f ≠ .medium medium := by
    rintro medium rfl
    exact absurd (Position.mem_drop_of_place hplace)
      (show 'm' ∉ ['i', 'c', 'b', 'k', 'a'] by decide)
  have hadd : d.add (.media f) = { d with media := ms ++ [m.add f] } := by
    cases f with
    | medium medium => exact absurd rfl (hne medium)
    | _ => simp [add, hms]
  let front : List DocumentField := d.beforeMedia ++ ms.flatMap fun m => m.fields.map .media
  have hd' : d.fields = front ++ m.fields.map .media := fields_eq_of_media hms
  have hadd' : (d.add (.media f)).fields = front ++ (m.add f).fields.map .media := by
    rw [hadd]
    exact fields_eq_of_media rfl
  let mk : MediaField → Entry := fun f =>
    ⟨.media (front.countP DocumentField.opensMedia + 1), .media f⟩
  have hentries : ∀ m' : MediaSection, entries (front ++ m'.fields.map .media)
      = entries front ++ m'.fields.map mk := fun m' => by
    rw [entries, entriesAfter_append, List.nil_append, entriesAfter_media]
    rfl
  have hnext : d.nextEntry (.media f) = mk f := by
    have hopens : DocumentField.opensMedia (.media f) = false := by
      cases f with
      | medium medium => exact absurd rfl (hne medium)
      | _ => rfl
    have hcount : (d.fields ++ [DocumentField.media f]).countP DocumentField.opensMedia
        = front.countP DocumentField.opensMedia + 1 := by
      rw [hd', List.countP_append, List.countP_append, countP_mediaFields]
      simp [hopens]
    rw [nextEntry, DocumentField.home, hcount]
    rfl
  -- What stands in front of the medium is not at home in it.
  have hother : ∀ e ∈ entries front, Entry.alike e (mk f) = false := fun e he => by
    rw [← Bool.not_eq_true, Entry.alike_iff]
    rintro ⟨hhome, -⟩
    exact absurd (le_of_home_eq_media he hhome) (Nat.not_succ_le_self _)
  have halike : ∀ g ∈ m.fields, Entry.alike (mk g) (mk f) = MediaSection.alike g f := fun g _ => by
    simp only [Entry.alike, mk, decide_true, Bool.true_and]
    rfl
  refine ⟨⟨hd.keyed.add _, ?_, by simp, ?_⟩, ?_⟩
  · simp [EmptyFrom, filled, parts]
  · rintro last ⟨⟩
    exact ⟨ms, m.add f, by rw [hadd], hempty'⟩
  · rw [hadd', hentries, hfields, ← enter_map halike,
      ← enter_append_of_not_alike hother, ← hentries, ← hd', hnext]

/-- A line enters one entry, and nothing is filled in behind it. -/
theorem At.add (hp : p.Valid) (hd : d.At p) (h : p.next f.letter = .ok (p', f.owner)) :
    (d.add f).At p'
      ∧ entries (d.add f).fields = enter Entry.alike (entries d.fields) (d.nextEntry f) := by
  cases hp with
  | outside slot => exact hd.add_own h
  | time last =>
    by_cases hplace : ∃ i, (Position.shapeOf .time).place (some last) f.letter = .slot i
    · obtain ⟨i, hi⟩ := hplace
      rw [Position.next_of_place hi] at h
      obtain ⟨rfl, howner⟩ := Prod.mk.inj (Except.ok.inj h)
      cases f with
      | time f => exact hd.add_time hi
      | _ => simp [DocumentField.owner] at howner
    · rw [not_exists] at hplace
      rw [Position.next_of_not_place hplace] at h
      exact hd.add_own h
  | media last =>
    by_cases hplace : ∃ i, (Position.shapeOf .media).place (some last) f.letter = .slot i
    · obtain ⟨i, hi⟩ := hplace
      rw [Position.next_of_place hi] at h
      obtain ⟨rfl, howner⟩ := Prod.mk.inj (Except.ok.inj h)
      cases f with
      | media f => exact hd.add_media hi
      | _ => simp [DocumentField.owner] at howner
    · rw [not_exists] at hplace
      rw [Position.next_of_not_place hplace] at h
      exact hd.add_own h

/-! ### All lines -/

/-- A run of lines enters their entries one after the other. -/
theorem At.foldl_add {ls : List Line} {fs : List NumberedField} (hp : p.Valid) (hd : d.At p)
    (ht : before.countP DocumentField.opensTime = d.times.length)
    (hm : before.countP DocumentField.opensMedia = d.media.length)
    (h : readLines p ls = .ok fs) :
    entries ((fs.map NumberedField.field).foldl Draft.add d).fields
      = (entriesAfter before (fs.map NumberedField.field)).foldl (enter Entry.alike)
        (entries d.fields) := by
  induction ls generalizing p d before fs with
  | nil =>
    obtain rfl := Except.ok.inj h
    rfl
  | cons l ls ih =>
    obtain ⟨⟨p', f⟩, hline, htail⟩ := bind_eq_ok.mp h
    obtain ⟨rest, hrest, hfs⟩ := bind_eq_ok.mp htail
    obtain rfl := pure_eq_ok.mp hfs
    obtain ⟨hnext, -⟩ := readLine_eq_ok_iff.mp hline
    obtain ⟨hd', hentries⟩ := hd.add hp hnext
    obtain ⟨-, -, hp', -⟩ := Position.owner_of_next hp hnext
    obtain ⟨htimes, hmedia⟩ := d.length_add f
    have hentry : d.nextEntry f = ⟨f.home (before ++ [f]), f⟩ := by
      have hdt : (d.fields ++ [f]).countP DocumentField.opensTime
          = (before ++ [f]).countP DocumentField.opensTime := by
        rw [List.countP_append, List.countP_append, d.countP_fields.1, ht]
      have hdm : (d.fields ++ [f]).countP DocumentField.opensMedia
          = (before ++ [f]).countP DocumentField.opensMedia := by
        rw [List.countP_append, List.countP_append, d.countP_fields.2, hm]
      rw [nextEntry, f.home_congr hdt hdm]
    rw [List.map_cons, List.foldl_cons, entriesAfter, List.foldl_cons, ← hentry, ← hentries]
    refine ih hp' hd' ?_ ?_ hrest
    · rw [List.countP_append, ht, htimes]
    · rw [List.countP_append, hm, hmedia]

end Draft

/-! ### Whole sessions -/

namespace Session

variable {t : Text} {s : Session}

/-- Nothing that bears on writing is collapsed. -/
theorem forall_isWritable_collapse {fs : List DocumentField} :
    (∀ e ∈ collapse Entry.alike (entries fs), e.field.isWritable = true)
      ↔ ∀ f ∈ fs, f.isWritable = true := by
  constructor
  · intro h f hf
    cases hb : f.bandwidth? with
    | none =>
      rw [← map_field_entries fs] at hf
      obtain ⟨e, he, rfl⟩ := List.mem_map.mp hf
      refine h e (mem_collapseAfter (fun g => ?_) (fun g => ?_) he)
      · exact (Entry.not_alike hb g).1
      · exact (Entry.not_alike hb g).2
    | some b =>
      -- A bandwidth can always be written.
      cases f with
      | time f => simp [DocumentField.bandwidth?] at hb
      | _ => rfl
  · intro h e he
    have hmem := List.mem_map_of_mem (f := Entry.field) (mem_of_mem_collapseAfter he)
    exact h _ (map_field_entries fs ▸ hmem)

/-- The fields that the lines of a session are read as, each by the section
that owns its line. -/
structure ReadsLines (ls : List Line) (fs : List DocumentField) : Prop where
  owners : fs.map (·.owner) = Grammar.owners .session (Line.letters ls)
  reads : List.Forall₂ (fun l f => Field.ofLine (readField f.owner) l.text = .ok f) ls fs

/-- The lines of a session that was read, and its entries. -/
theorem readsLines_of_ofText (h : ofText t = .ok s) :
    ∃ ls fs, Line.ofText t = .ok ls ∧ ReadsLines ls fs
      ∧ entries s.draft.fields = collapse Entry.alike (entries fs) := by
  obtain ⟨ls, hls, hs⟩ := bind_eq_ok.mp h
  obtain ⟨hne, fs, hfs, hs⟩ := ofLines_eq_ok_iff_readLines.mp hs
  obtain ⟨-, howners, hreads⟩ :=
    (readLines_eq_ok_iff (.outside none) fun he => absurd he hne).mp hfs
  refine ⟨ls, _, mapError_eq_ok.mp hls,
    ⟨?_, List.forall₂_map_right_iff.mpr (hreads.imp fun _ _ hlf => hlf.2)⟩, ?_⟩
  · rw [(letters_of_readsAs hreads).2, List.map_map]
    exact howners
  · rw [Draft.draft_of_toSession hs, collapse_eq_foldl Entry.alike_symm Entry.alike_trans]
    exact Draft.at_start.foldl_add (.outside none) rfl rfl hfs

/-- The written session line by line.  The lines that were read stand for
fields, each read by the section that owns the line, and the session has these
fields in the same order and each where it was at home, but that bandwidths of
one kind in one section are collapsed into one, at the first place and with the
last value.  It can be written if the times on its lines can. -/
theorem entries_of_ofText (h : ofText t = .ok s) :
    ∃ ls fs, Line.ofText t = .ok ls ∧ ReadsLines ls fs
      ∧ entries s.draft.fields = collapse Entry.alike (entries fs)
      ∧ s.text = (collapse Entry.alike (entries fs)).flatMap (fun e => endLine e.field.text)
      ∧ ((session s).isWritable = true ↔ ∀ f ∈ fs, f.isWritable = true) := by
  obtain ⟨ls, fs, hls, hlines, hentries⟩ := readsLines_of_ofText h
  have hfields := (map_field_entries s.draft.fields).symm
  rw [hentries] at hfields
  refine ⟨ls, fs, hls, hlines, hentries, ?_, ?_⟩
  · rw [text, Draft.text, hfields, List.flatMap_map]
  · rw [isWritable, Document.fields, hfields, List.all_eq_true, List.forall_mem_map]
    exact forall_isWritable_collapse

/-- A session and a medium with two bandwidths of one kind each. -/
def crowded : Text :=
  "v=0\r\no=- 0 0 IN IP4 x\r\ns=-\r\nb=x:1\r\nb=AS:2\r\nb=X:3\r\nt=1 2\r\n".toList
    ++ "m=audio 9 RTP/AVP 0\r\nb=x:4\r\nb=y:5\r\nb=X:6\r\n".toList

/-- The crowded session as it is written: each first place has its last
value. -/
def uncrowded : Text :=
  "v=0\r\no=- 0 0 IN IP4 x\r\ns=-\r\nb=X:3\r\nb=AS:2\r\nt=1 2\r\n".toList
    ++ "m=audio 9 RTP/AVP 0\r\nb=X:6\r\nb=y:5\r\n".toList

theorem entries_of_ofText_crowded : ∃ s : Session, ofText crowded = .ok s ∧ s.text = uncrowded
    ∧ ∃ ls fs, Line.ofText crowded = .ok ls ∧ ReadsLines ls fs
      ∧ entries s.draft.fields = collapse Entry.alike (entries fs)
      ∧ s.text = (collapse Entry.alike (entries fs)).flatMap (fun e => endLine e.field.text)
      ∧ ((session s).isWritable = true ↔ ∀ f ∈ fs, f.isWritable = true) :=
  ⟨_, rfl, rfl, entries_of_ofText (t := crowded) rfl⟩

end Session

end OfferAnswer
